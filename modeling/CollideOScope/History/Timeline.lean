import CollideOScope.Support.Machine
import CollideOScope.Support.Zipper
import CollideOScope.History.Manual

/-!
# Undo and redo are a window of the timeline

The host owns the live authored world.  It captures checkpoints of that world
when it calls the history, changes the world in place between calls, and
installs the prepared target when a restore is accepted.

The timeline of a run is a history variable: it remembers every authored
version and moves only when a call reports that it recorded or restored.  The
stacks of `ManualHistory` are a window of it, whatever the eviction loops drop.
-/

namespace CollideOScope.History

open Option ManualHistory Nat

variable {T : Type}

/-- What `bounded` promises about the limits it admits. -/
structure HistoryLimits.Admissible (limits : HistoryLimits) : Prop where
  entries_pos : 0 < limits.maxEntries
  bytes_le : limits.maxBytes ≤ historyMaxBytes
  checkpoint_le : limits.maxCheckpointBytes ≤ limits.maxBytes

open HistoryLimits

theorem HistoryLimits.admissible_of_bounded {limits limits' : HistoryLimits}
    (h : limits.bounded = .ok limits') :
    limits' = limits ∧ limits.Admissible := by
  unfold bounded at h
  split at h
  · cases h
  · rename_i hgood
    push Not at hgood
    obtain ⟨hents, -, -, hbytes, -, -, hcheckpoint⟩ := hgood
    exact ⟨(Except.ok.inj h).symm, ⟨pos_of_ne_zero hents, hbytes, hcheckpoint⟩⟩

theorem HistoryLimits.Admissible.lt_u64Max {limits : HistoryLimits}
    (h : limits.Admissible) : limits.maxBytes + limits.maxBytes < u64Max := by
  have hbytes := h.bytes_le
  unfold historyMaxBytes at hbytes
  unfold u64Max
  omega

theorem validateCheckpoint_eq_ok {history : ManualHistory T} {checkpoint : HistoryCheckpoint T}
    (h : history.validateCheckpoint checkpoint = .ok ()) :
    checkpoint.bytes ≤ history.limits.maxCheckpointBytes := by
  unfold validateCheckpoint at h
  split at h
  · cases h
  · rename_i hsmall
    exact not_lt.mp hsmall

def stackBytes (stack : List (HistoryCheckpoint T)) : ℕ := (stack.map (·.bytes)).sum

/-- The stacks are a window of the timeline, and their byte totals are
exact. -/
structure Stacked (z : Timeline T) (history : ManualHistory T) : Prop where
  retains : z.Retains (history.undo.map (·.state)) (history.redo.map (·.state))
  undoBytes_eq : history.undoBytes = stackBytes history.undo
  redoBytes_eq : history.redoBytes = stackBytes history.redo

variable {z : Timeline T} {history : ManualHistory T} {checkpoint : HistoryCheckpoint T}

theorem stackBytes_concat (stack : List (HistoryCheckpoint T)) (checkpoint : HistoryCheckpoint T) :
    stackBytes (stack ++ [checkpoint]) = stackBytes stack + checkpoint.bytes := by
  simp [stackBytes]

theorem stackBytes_cons (checkpoint : HistoryCheckpoint T) (stack : List (HistoryCheckpoint T)) :
    stackBytes (checkpoint :: stack) = checkpoint.bytes + stackBytes stack := by
  simp [stackBytes]

theorem evictWhile_spec (exceeds : ManualHistory T → Bool) (h : Stacked z history) :
    Stacked z (evictWhile exceeds history) ∧
      (exceeds (evictWhile exceeds history) = false ∨
        (evictWhile exceeds history).undo = [] ∧ (evictWhile exceeds history).redo = []) ∧
      ∃ undo undoBytes redo redoBytes, evictWhile exceeds history =
        { history with undo, undoBytes, redo, redoBytes } := by
  fun_induction evictWhile exceeds history with
  | case1 history hexc removed undo hundo ih =>
    apply ih
    have hretains := h.retains
    have hbytes := h.undoBytes_eq
    rw [hundo] at hretains
    rw [hundo, stackBytes_cons] at hbytes
    refine ⟨hretains.drop_undo, ?_, h.redoBytes_eq⟩
    rw [hbytes, Nat.add_sub_cancel_left]
  | case2 history hexc hundo removed redo hredo ih =>
    apply ih
    have hretains := h.retains
    have hbytes := h.redoBytes_eq
    rw [hredo] at hretains
    rw [hredo, stackBytes_cons] at hbytes
    refine ⟨hretains.drop_redo, h.undoBytes_eq, ?_⟩
    rw [hbytes, Nat.add_sub_cancel_left]
  | case3 history hexc hundo hredo => exact ⟨h, .inr ⟨hundo, hredo⟩, _, _, _, _, rfl⟩
  | case4 history hwith => exact ⟨h, .inl (Bool.eq_false_of_not_eq_true hwith), _, _, _, _, rfl⟩

/-- `trim_to_limits` ends within the limits. -/
theorem trimToLimits_spec (h : Stacked z history) (hlim : history.limits.Admissible) :
    Stacked z history.trimToLimits ∧
      history.trimToLimits.undo.length + history.trimToLimits.redo.length ≤
        history.limits.maxEntries ∧
      history.trimToLimits.undoBytes + history.trimToLimits.redoBytes ≤ history.limits.maxBytes ∧
      ∃ undo undoBytes redo redoBytes, history.trimToLimits =
        { history with undo, undoBytes, redo, redoBytes } := by
  obtain ⟨hstacked, hend, undo, undoBytes, redo, redoBytes, hframe⟩ :=
    evictWhile_spec exceedsLimits h
  have hsmall : history.limits.maxBytes < u64Max := by
    have hlt := hlim.lt_u64Max
    omega
  refine ⟨hstacked, ?_⟩
  unfold trimToLimits
  rcases hend with hwith | ⟨hundo, hredo⟩
  · obtain ⟨hents, hbytes⟩ := Bool.or_eq_false_iff.mp hwith
    have hents := not_lt.mp (of_decide_eq_false hents)
    have hbytes := not_lt.mp (of_decide_eq_false hbytes)
    rw [hframe] at hents hbytes ⊢
    exact ⟨hents, (saturatingAddU64_le_iff hsmall).mp hbytes, _, _, _, _, rfl⟩
  · have hundoBytes := hstacked.undoBytes_eq
    have hredoBytes := hstacked.redoBytes_eq
    rw [hundo] at hundoBytes
    rw [hredo] at hredoBytes
    rw [hundo, hredo, hundoBytes, hredoBytes]
    exact ⟨zero_le _, zero_le _, _, _, _, _, hframe⟩

/-- `make_room_for_open` leaves room for the open checkpoint. -/
theorem makeRoomForOpen_spec (h : Stacked z history) (hlim : history.limits.Admissible)
    {openBytes : ℕ} (hopen : openBytes ≤ history.limits.maxCheckpointBytes) :
    Stacked z (history.makeRoomForOpen openBytes) ∧
      (history.makeRoomForOpen openBytes).undo.length +
        (history.makeRoomForOpen openBytes).redo.length + 1 ≤
        history.limits.maxEntries ∧
      (history.makeRoomForOpen openBytes).undoBytes +
        (history.makeRoomForOpen openBytes).redoBytes + openBytes ≤
        history.limits.maxBytes ∧
      ∃ undo undoBytes redo redoBytes, history.makeRoomForOpen openBytes =
        { history with undo, undoBytes, redo, redoBytes } := by
  obtain ⟨hstacked, hend, undo, undoBytes, redo, redoBytes, hframe⟩ :=
    evictWhile_spec (exceedsWithOpen openBytes) h
  have hsmall : history.limits.maxBytes < u64Max := by
    have hlt := hlim.lt_u64Max
    omega
  refine ⟨hstacked, ?_⟩
  unfold makeRoomForOpen
  rcases hend with hwith | ⟨hundo, hredo⟩
  · obtain ⟨hents, hbytes⟩ := Bool.or_eq_false_iff.mp hwith
    have hents := not_lt.mp (of_decide_eq_false hents)
    have hbytes := not_lt.mp (of_decide_eq_false hbytes)
    rw [hframe] at hents hbytes ⊢
    have hsum := (saturatingAddU64_le_iff hsmall).mp hbytes
    have hinner : undoBytes + redoBytes ≤ u64Max := by
      by_contra hlarge
      simp only [saturatingAddU64] at hsum
      omega
    rw [saturatingAddU64_of_le hinner] at hsum
    exact ⟨hents, hsum, _, _, _, _, rfl⟩
  · have hundoBytes := hstacked.undoBytes_eq
    have hredoBytes := hstacked.redoBytes_eq
    rw [hundo] at hundoBytes
    rw [hredo] at hredoBytes
    have hpos := hlim.entries_pos
    have hfits := hopen.trans hlim.checkpoint_le
    rw [hundo, hredo, hundoBytes, hredoBytes]
    refine ⟨hpos, by simpa [stackBytes] using hfits, ?_⟩
    exact ⟨_, _, _, _, hframe⟩

/-- What the host supplies with the live world when it captures a
checkpoint. -/
structure HistoryCapture where
  fingerprint : HistoryFingerprint
  bytes : ℕ
  (label category : String)

def HistoryCapture.of (capture : HistoryCapture) (world : T) : HistoryCheckpoint T where
  state := world
  fingerprint := capture.fingerprint
  bytes := capture.bytes
  label := capture.label
  category := capture.category

structure HistoryHost (T : Type) where
  history : ManualHistory T
  live : T
  prepared : Option (HistoryRestoreCandidate T)

/-- The calls of the host.  Every checkpoint is captured from the live world at
the call; `edit` is any change of the live world between two calls. -/
inductive HistoryCall (T : Type) where
  | edit (world : T)
  | beginGesture (id : HistoryGestureId) (origin : MutationOrigin)
      (before : HistoryCapture)
  | finishGesture (id : HistoryGestureId)
      (afterFingerprint : HistoryFingerprint)
  | cancelGesture (id : HistoryGestureId)
  | recordManual (origin : MutationOrigin) (before : HistoryCapture)
      (after : T) (afterFingerprint : HistoryFingerprint)
  | prepareUndo | prepareRedo
  | rejectRestore (token : HistoryRestoreToken)
  | commitRestore (token : HistoryRestoreToken) (current : HistoryCapture)

def HistoryHost.prepare (s : HistoryHost T)
    (result : Except HistoryError (Option (HistoryRestoreCandidate T)) ×
      ManualHistory T) : HistoryHost T :=
  match result.1 with
  | .ok (some candidate) => { s with history := result.2, prepared := some candidate }
  | _ => { s with history := result.2 }

/-- Install the prepared target when the restore was accepted. -/
def HistoryHost.install (s : HistoryHost T)
    (result : Except HistoryError Unit × ManualHistory T) : HistoryHost T :=
  match result.1, s.prepared with
  | .ok (), some candidate => { s with history := result.2, live := candidate.target.state }
  | _, _ => { s with history := result.2 }

def hostNext (s : HistoryHost T) : HistoryCall T → HistoryHost T
  | .edit world => { s with live := world }
  | .beginGesture id origin before =>
    { s with history := (s.history.beginGesture id origin (before.of s.live)).2 }
  | .finishGesture id afterFingerprint =>
    { s with history := (s.history.finishGesture id afterFingerprint).2 }
  | .cancelGesture id => { s with history := (s.history.cancelGesture id).2 }
  | .recordManual origin before after afterFingerprint =>
    { s with
      history := (s.history.recordManual origin (before.of s.live) afterFingerprint).2
      live := after }
  | .prepareUndo => s.prepare s.history.prepareUndo
  | .prepareRedo => s.prepare s.history.prepareRedo
  | .rejectRestore token => { s with history := (s.history.rejectRestore token).2 }
  | .commitRestore token current => s.install (s.history.commitRestore token (current.of s.live))

/-- The timeline of a run, and the world that was live when the open gesture
began. -/
structure HistoryGhost (T : Type) where
  timeline : Timeline T
  opened : Option T

def restoreTimeline (z : Timeline T) : HistoryRestoreDirection → Option (Timeline T)
  | .undo => z.undo
  | .redo => z.redo

def HistoryGhost.next (g : HistoryGhost T) (s : HistoryHost T) : HistoryCall T → HistoryGhost T
  | .edit world => { g with timeline := g.timeline.edit world }
  | .beginGesture id origin before =>
    match (s.history.beginGesture id origin (before.of s.live)).1 with
    | .ok .recorded => { g with opened := some s.live }
    | _ => g
  | .finishGesture id afterFingerprint =>
    match (s.history.finishGesture id afterFingerprint).1, g.opened with
    | .ok .recorded, some before => { timeline := g.timeline.record before, opened := none }
    | .ok _, _ => { g with opened := none }
    | .error _, _ => g
  | .cancelGesture id =>
    match (s.history.cancelGesture id).1 with
    | .ok _ => { g with opened := none }
    | .error _ => g
  | .recordManual origin before after afterFingerprint =>
    match (s.history.recordManual origin (before.of s.live)
        afterFingerprint).1 with
    | .ok .recorded => { g with timeline := (g.timeline.record s.live).edit after }
    | _ => { g with timeline := g.timeline.edit after }
  | .prepareUndo => g
  | .prepareRedo => g
  | .rejectRestore _ => g
  | .commitRestore token current =>
    match (s.history.commitRestore token (current.of s.live)).1,
        s.history.pending with
    | .ok (), some pending =>
      { g with timeline := (restoreTimeline g.timeline pending.direction).getD g.timeline }
    | _, _ => g

def historyMachine (limits : HistoryLimits) (world : T) :
    Machine (HistoryHost T) (HistoryCall T) where
  start s := withLimits limits = .ok s.history ∧ s.live = world ∧ s.prepared = none
  step s call := some (hostNext s call)

def historyRuns (limits : HistoryLimits) (world : T) :
    Machine (HistoryHost T × HistoryGhost T) (HistoryCall T) :=
  (historyMachine limits world).observe ⟨⟨[], world, []⟩, none⟩
    fun g s call _ => g.next s call

section

variable (history : ManualHistory T) (id : HistoryGestureId)

theorem beginGesture_cases (origin : MutationOrigin) (before : HistoryCheckpoint T) :
    (∃ outcome, history.beginGesture id origin before = (outcome, history) ∧
      outcome ≠ .ok .recorded) ∨
    (history.opened = none ∧ history.pending = none ∧
      before.bytes ≤ history.limits.maxCheckpointBytes ∧
      history.beginGesture id origin before =
        (.ok .recorded,
          { history.makeRoomForOpen before.bytes with
            opened := some ⟨id, origin, before⟩ }.bumpGeneration)) := by
  unfold beginGesture
  split
  · exact .inl ⟨_, rfl, nofun⟩
  split
  · exact .inl ⟨_, rfl, nofun⟩
  rename_i hpend
  split
  · exact .inl ⟨_, rfl, nofun⟩
  rename_i hopen
  split
  · exact .inl ⟨_, rfl, nofun⟩
  rename_i hvalid
  exact .inr ⟨hopen, not_isSome_iff_eq_none.mp hpend, validateCheckpoint_eq_ok hvalid, rfl⟩

theorem finishGesture_cases (afterFingerprint : HistoryFingerprint) :
    (∃ error, history.finishGesture id afterFingerprint = (.error error, history)) ∨
    ∃ opened, history.opened = some opened ∧ history.pending = none ∧
      (history.finishGesture id afterFingerprint =
          (.ok .noChange, { history with opened := none }.bumpGeneration) ∨
        history.finishGesture id afterFingerprint =
          (.ok .recorded,
            (({ history with opened := none }.clearRedo.pushUndo
              opened.before).trimToLimits).bumpGeneration)) := by
  unfold finishGesture
  split
  · exact .inl ⟨_, rfl⟩
  rename_i hpend
  split
  · exact .inl ⟨_, rfl⟩
  rename_i opened hopen
  split
  · exact .inl ⟨_, rfl⟩
  refine .inr ⟨opened, hopen, not_isSome_iff_eq_none.mp hpend, ?_⟩
  split
  · exact .inl rfl
  · exact .inr rfl

theorem cancelGesture_cases :
    (∃ error, history.cancelGesture id = (.error error, history)) ∨
    (history.pending = none ∧ history.cancelGesture id =
      (.ok .cancelled, { history with opened := none }.bumpGeneration)) := by
  unfold cancelGesture
  split
  · exact .inl ⟨_, rfl⟩
  rename_i hpend
  split
  · exact .inl ⟨_, rfl⟩
  split
  · exact .inl ⟨_, rfl⟩
  exact .inr ⟨not_isSome_iff_eq_none.mp hpend, rfl⟩

theorem recordManual_cases (origin : MutationOrigin)
    (before : HistoryCheckpoint T) (afterFingerprint : HistoryFingerprint) :
    (∃ outcome, history.recordManual origin before afterFingerprint =
      (outcome, history) ∧ outcome ≠ .ok .recorded) ∨
    (history.opened = none ∧ history.pending = none ∧
      before.bytes ≤ history.limits.maxCheckpointBytes ∧
      history.recordManual origin before afterFingerprint =
        (.ok .recorded, ((history.clearRedo.pushUndo before).trimToLimits).bumpGeneration)) := by
  unfold recordManual
  split
  · exact .inl ⟨_, rfl, nofun⟩
  split
  · exact .inl ⟨_, rfl, nofun⟩
  rename_i hpend
  split
  · exact .inl ⟨_, rfl, nofun⟩
  rename_i hopen
  split
  · exact .inl ⟨_, rfl, nofun⟩
  rename_i hvalid
  split
  · exact .inl ⟨_, rfl, nofun⟩
  exact .inr ⟨hopen, not_isSome_iff_eq_none.mp hpend, validateCheckpoint_eq_ok hvalid, rfl⟩

theorem prepareRestore_cases (direction : HistoryRestoreDirection) :
    (∃ error, history.prepareRestore direction = (.error error, history)) ∨
    history.prepareRestore direction = (.ok none, history) ∨
    ∃ target token nextToken, history.opened = none ∧
      (history.restoreStack direction).getLast? = some target ∧
      history.prepareRestore direction =
        (.ok (some ⟨token, direction, target⟩),
          { history with
            nextRestoreToken := nextToken
            pending := some ⟨token, direction, target.fingerprint⟩ }
            |>.bumpGeneration) := by
  unfold prepareRestore
  split
  · exact .inl ⟨_, rfl⟩
  split
  · exact .inl ⟨_, rfl⟩
  rename_i hopen
  split
  · exact .inr (.inl rfl)
  rename_i target htgt
  unfold allocateRestoreToken
  by_cases hnz : history.nextRestoreToken ≠ 0
  · rw [dif_pos hnz]
    exact .inr (.inr ⟨target, _, _, hopen, htgt, rfl⟩)
  · rw [dif_neg hnz]
    exact .inl ⟨_, rfl⟩

theorem rejectRestore_cases (token : HistoryRestoreToken) :
    (∃ error, history.rejectRestore token = (.error error, history)) ∨
    history.rejectRestore token = (.ok (), { history with pending := none }.bumpGeneration) := by
  unfold rejectRestore
  split
  · exact .inl ⟨_, rfl⟩
  split
  · exact .inl ⟨_, rfl⟩
  · exact .inr rfl

theorem commitRestore_cases (token : HistoryRestoreToken) (current : HistoryCheckpoint T) :
    (∃ error, history.commitRestore token current = (.error error, history)) ∨
    ∃ pending target, history.pending = some pending ∧
      current.bytes ≤ history.limits.maxCheckpointBytes ∧
      (history.restoreStack pending.direction).getLast? = some target ∧
      history.commitRestore token current =
        (.ok (), (({ history with pending := none }.moveRestored
          pending.direction target current).trimToLimits).bumpGeneration) := by
  unfold commitRestore
  split
  · exact .inl ⟨_, rfl⟩
  rename_i pending hpend
  split
  · exact .inl ⟨_, rfl⟩
  split
  · exact .inl ⟨_, rfl⟩
  rename_i hvalid
  split
  · exact .inl ⟨_, rfl⟩
  rename_i target htgt
  split
  · exact .inl ⟨_, rfl⟩
  split
  · exact .inl ⟨_, rfl⟩
  exact .inr ⟨pending, target, hpend, validateCheckpoint_eq_ok hvalid, htgt, rfl⟩

end

def entryCount (history : ManualHistory T) : ℕ :=
  history.undo.length + history.redo.length + history.opened.isSome.toNat

def byteCount (history : ManualHistory T) : ℕ :=
  history.undoBytes + history.redoBytes + history.opened.elim 0 (·.before.bytes)

structure HistoryInvariant (limits : HistoryLimits) (s : HistoryHost T)
    (g : HistoryGhost T) : Prop where
  admissible : limits.Admissible
  limits_eq : s.history.limits = limits
  present_eq : g.timeline.present = s.live
  stacked : Stacked g.timeline s.history
  opened_eq : s.history.opened.map (·.before.state) = g.opened
  entries_le : entryCount s.history ≤ limits.maxEntries
  bytes_le : byteCount s.history ≤ limits.maxBytes
  exclusive : s.history.opened.isSome = true → s.history.pending = none
  prepared : ∀ pending, s.history.pending = some pending →
    ∃ candidate, s.prepared = some candidate ∧
      candidate.direction = pending.direction ∧
      (s.history.restoreStack pending.direction).getLast? = some candidate.target

theorem record_spec (h : Stacked z history) (hlim : history.limits.Admissible)
    (hbytes : history.undoBytes + checkpoint.bytes ≤ u64Max) :
    let next := ((history.clearRedo.pushUndo checkpoint).trimToLimits).bumpGeneration
    Stacked (z.record checkpoint.state) next ∧
      next.undo.length + next.redo.length ≤ history.limits.maxEntries ∧
      next.undoBytes + next.redoBytes ≤ history.limits.maxBytes ∧
      next.limits = history.limits ∧ next.opened = history.opened ∧
      next.pending = history.pending := by
  have hpushed : Stacked (z.record checkpoint.state) (history.clearRedo.pushUndo checkpoint) := by
    refine ⟨?_, ?_, rfl⟩
    · have hretains := h.retains.record checkpoint.state
      simpa [pushUndo, clearRedo] using hretains
    · simp only [pushUndo, clearRedo]
      rw [saturatingAddU64_of_le hbytes, stackBytes_concat, h.undoBytes_eq]
  obtain ⟨hstacked, hents, htot, undo, undoBytes, redo, redoBytes,
    hframe⟩ := trimToLimits_spec hpushed hlim
  refine ⟨⟨hstacked.retains, hstacked.undoBytes_eq, hstacked.redoBytes_eq⟩, hents, htot, ?_⟩
  simp only [bumpGeneration, hframe]
  exact ⟨rfl, rfl, rfl⟩

variable {current target : HistoryCheckpoint T} {direction : HistoryRestoreDirection}

open List in
theorem Stacked.moveRestored (h : Stacked z history)
    (hcur : current.state = z.present)
    (hbytes : history.undoBytes + history.redoBytes + current.bytes ≤ u64Max)
    (htgt : (history.restoreStack direction).getLast? = some target) :
    ∃ z', restoreTimeline z direction = some z' ∧
      z'.present = target.state ∧
      Stacked z' (history.moveRestored direction target current) := by
  obtain ⟨front, hfront⟩ := getLast?_eq_some_iff.mp htgt
  have hretains := h.retains
  have hundoBytes := h.undoBytes_eq
  have hredoBytes := h.redoBytes_eq
  cases direction with
  | undo =>
    have hundo : history.undo = front ++ [target] := hfront
    rw [hundo, map_append, map_singleton] at hretains
    rw [hundo, stackBytes_concat] at hundoBytes
    obtain ⟨z', hz', hpres, hwin⟩ := hretains.undo
    refine ⟨z', hz', hpres, ?_, ?_, ?_⟩
    · simp only [ManualHistory.moveRestored, hundo, dropLast_concat,
        map_append, map_singleton, hcur]
      exact hwin
    · simp only [ManualHistory.moveRestored, hundo, dropLast_concat, hundoBytes]
      exact Nat.add_sub_cancel _ _
    · simp only [ManualHistory.moveRestored]
      rw [saturatingAddU64_of_le (by omega), stackBytes_concat, hredoBytes]
  | redo =>
    have hredo : history.redo = front ++ [target] := hfront
    rw [hredo, map_append, map_singleton] at hretains
    rw [hredo, stackBytes_concat] at hredoBytes
    obtain ⟨z', hz', hpres, hwin⟩ := hretains.redo
    refine ⟨z', hz', hpres, ?_, ?_, ?_⟩
    · simp only [ManualHistory.moveRestored, hredo, dropLast_concat,
        map_append, map_singleton, hcur]
      exact hwin
    · simp only [ManualHistory.moveRestored]
      rw [saturatingAddU64_of_le (by omega), stackBytes_concat, hundoBytes]
    · simp only [ManualHistory.moveRestored, hredo, dropLast_concat, hredoBytes]
      exact Nat.add_sub_cancel _ _

theorem restore_spec (h : Stacked z history) (hlim : history.limits.Admissible)
    (hcur : current.state = z.present)
    (hbytes : history.undoBytes + history.redoBytes + current.bytes ≤ u64Max)
    (htgt : (history.restoreStack direction).getLast? = some target) :
    let next :=
      ((history.moveRestored direction target current).trimToLimits)
        |>.bumpGeneration
    ∃ z', restoreTimeline z direction = some z' ∧
      z'.present = target.state ∧ Stacked z' next ∧
      next.undo.length + next.redo.length ≤ history.limits.maxEntries ∧
      next.undoBytes + next.redoBytes ≤ history.limits.maxBytes ∧
      next.limits = history.limits ∧ next.opened = history.opened ∧
      next.pending = history.pending := by
  obtain ⟨z', hz', hpres, hstacked⟩ := h.moveRestored hcur hbytes htgt
  have hsame : (history.moveRestored direction target current).limits = history.limits ∧
      (history.moveRestored direction target current).opened = history.opened ∧
      (history.moveRestored direction target current).pending = history.pending := by
    cases direction with
    | undo | redo => exact ⟨rfl, rfl, rfl⟩
  obtain ⟨htrimmed, hents, htot, undo, undoBytes, redo, redoBytes,
    hframe⟩ := trimToLimits_spec hstacked (hsame.1 ▸ hlim)
  rw [hsame.1] at hents htot
  refine ⟨z', hz', hpres, ⟨htrimmed.retains, htrimmed.undoBytes_eq,
    htrimmed.redoBytes_eq⟩, hents, htot, ?_⟩
  simp only [bumpGeneration, hframe]
  exact hsame

section

variable {limits : HistoryLimits} {s : HistoryHost T} {g : HistoryGhost T}

section

variable (hinv : HistoryInvariant limits s g)
include hinv

theorem HistoryInvariant.bytes_room {bytes : ℕ} (hbytes : bytes ≤ limits.maxBytes) :
    s.history.undoBytes + s.history.redoBytes + bytes ≤ u64Max := by
  have htot := hinv.bytes_le
  have hlt := hinv.admissible.lt_u64Max
  unfold byteCount at htot
  omega

theorem HistoryInvariant.opened_of_pending {pending : PendingRestore}
    (hpend : s.history.pending = some pending) :
    s.history.opened = none := by
  by_contra hsome
  have hnone := hinv.exclusive (isSome_iff_ne_none.mpr hsome)
  rw [hpend] at hnone
  cases hnone

theorem HistoryInvariant.history_admissible : s.history.limits.Admissible := by
  rw [hinv.limits_eq]
  exact hinv.admissible

theorem HistoryInvariant.edit (x : T) :
    HistoryInvariant limits { s with live := x } { g with timeline := g.timeline.edit x } where
  admissible := hinv.admissible
  limits_eq := hinv.limits_eq
  present_eq := rfl
  stacked := ⟨hinv.stacked.retains.edit x, hinv.stacked.undoBytes_eq, hinv.stacked.redoBytes_eq⟩
  opened_eq := hinv.opened_eq
  entries_le := hinv.entries_le
  bytes_le := hinv.bytes_le
  exclusive := hinv.exclusive
  prepared := hinv.prepared

end

theorem historyInvariant_of_settled {next : ManualHistory T} {live : T}
    {prepared : Option (HistoryRestoreCandidate T)} (hadm : limits.Admissible)
    (hlim : next.limits = limits) (hstacked : Stacked z next) (hpres : z.present = live)
    (hents : next.undo.length + next.redo.length ≤ limits.maxEntries)
    (hbytes : next.undoBytes + next.redoBytes ≤ limits.maxBytes) (hopen : next.opened = none)
    (hpend : next.pending = none) :
    HistoryInvariant limits ⟨next, live, prepared⟩ ⟨z, none⟩ where
  admissible := hadm
  limits_eq := hlim
  present_eq := hpres
  stacked := hstacked
  opened_eq := by rw [hopen, map_none]
  entries_le := by
    rw [entryCount, hopen]
    exact hents
  bytes_le := by
    rw [byteCount, hopen]
    exact hbytes
  exclusive _ := hpend
  prepared := by
    intro pending hsome
    rw [hpend] at hsome
    cases hsome

variable (hinv : HistoryInvariant limits s g)
include hinv

theorem HistoryInvariant.stacked_closed : Stacked g.timeline { s.history with opened := none } :=
  ⟨hinv.stacked.retains, hinv.stacked.undoBytes_eq, hinv.stacked.redoBytes_eq⟩

theorem HistoryInvariant.record (hbytes : checkpoint.bytes ≤ limits.maxBytes)
    (hpend : s.history.pending = none) :
    HistoryInvariant limits
      { s with
        history := (({ s.history with opened := none }.clearRedo.pushUndo
          checkpoint).trimToLimits).bumpGeneration }
      { timeline := g.timeline.record checkpoint.state, opened := none } := by
  have hadm := hinv.history_admissible
  have hroom : s.history.undoBytes + checkpoint.bytes ≤ u64Max := by
    have hroom := hinv.bytes_room hbytes
    omega
  obtain ⟨hstacked, hents, htot, hlim, hopen, hsame⟩ := record_spec hinv.stacked_closed hadm hroom
  exact historyInvariant_of_settled hinv.admissible
    (hlim.trans hinv.limits_eq) hstacked hinv.present_eq
    (hents.trans_eq (congrArg maxEntries hinv.limits_eq))
    (htot.trans_eq (congrArg maxBytes hinv.limits_eq))
    hopen (hsame.trans hpend)

open HistoryGhost

theorem HistoryInvariant.beginGesture (id : HistoryGestureId)
    (origin : MutationOrigin) (before : HistoryCapture) :
    HistoryInvariant limits (hostNext s (.beginGesture id origin before))
      (g.next s (.beginGesture id origin before)) := by
  rcases beginGesture_cases s.history id origin (before.of s.live) with
    ⟨outcome, hcall, hother⟩ | ⟨hopen, hpend, hbytes, hcall⟩
  · have hghost : g.next s (.beginGesture id origin before) = g := by simp only [next, hcall]
    rw [hghost, hostNext, hcall]
    exact hinv
  · have hadm : s.history.limits.Admissible := by
      rw [hinv.limits_eq]
      exact hinv.admissible
    obtain ⟨hstacked, hents, htot, undo, undoBytes, redo, redoBytes,
      hframe⟩ := makeRoomForOpen_spec hinv.stacked hadm hbytes
    rw [hinv.limits_eq] at hents htot
    rw [hframe] at hcall hstacked hents htot
    have hghost : g.next s (.beginGesture id origin before) = { g with opened := some s.live } := by
      simp only [next, hcall]
    rw [hghost, hostNext, hcall]
    refine ⟨hinv.admissible, hinv.limits_eq, hinv.present_eq, ?_, rfl,
      hents, htot, fun _ => hpend, ?_⟩
    · exact ⟨hstacked.retains, hstacked.undoBytes_eq, hstacked.redoBytes_eq⟩
    · intro pending hsome
      exact absurd (hpend.symm.trans hsome) nofun

theorem HistoryInvariant.close (hpend : s.history.pending = none) :
    HistoryInvariant limits { s with history := { s.history with opened := none }.bumpGeneration }
      { g with opened := none } := by
  have hents := hinv.entries_le
  have hbytes := hinv.bytes_le
  exact historyInvariant_of_settled hinv.admissible hinv.limits_eq
    ⟨hinv.stacked.retains, hinv.stacked.undoBytes_eq, hinv.stacked.redoBytes_eq⟩ hinv.present_eq
    ((le_add_right _ _).trans hents)
    ((le_add_right _ _).trans hbytes) rfl hpend

theorem HistoryInvariant.finishGesture (id : HistoryGestureId)
    (afterFingerprint : HistoryFingerprint) :
    HistoryInvariant limits (hostNext s (.finishGesture id afterFingerprint))
      (g.next s (.finishGesture id afterFingerprint)) := by
  rcases finishGesture_cases s.history id afterFingerprint with
    ⟨error, hcall⟩ | ⟨opened, hopen, hpend, hsame | hrec⟩
  · simp only [hostNext, next, hcall]
    exact hinv
  · have hghost : g.next s (.finishGesture id afterFingerprint) = { g with opened := none } := by
      simp only [next, hsame]
    rw [hghost, hostNext, hsame]
    exact hinv.close hpend
  · have hpre : g.opened = some opened.before.state := by
      rw [← hinv.opened_eq, hopen, map_some]
    have hbytes : opened.before.bytes ≤ limits.maxBytes := by
      have hbytes := hinv.bytes_le
      rw [byteCount, hopen, elim_some] at hbytes
      exact (le_add_left _ _).trans hbytes
    have hghost : g.next s (.finishGesture id afterFingerprint) =
        { timeline := g.timeline.record opened.before.state
          opened := none } := by
      simp only [next, hrec, hpre]
    rw [hghost, hostNext, hrec]
    exact hinv.record hbytes hpend

theorem HistoryInvariant.cancelGesture (id : HistoryGestureId) :
    HistoryInvariant limits (hostNext s (.cancelGesture id)) (g.next s (.cancelGesture id)) := by
  rcases cancelGesture_cases s.history id with ⟨error, hcall⟩ | ⟨hpend, hcall⟩
  · simp only [hostNext, next, hcall]
    exact hinv
  · simp only [hostNext, next, hcall]
    exact hinv.close hpend

theorem HistoryInvariant.recordManual (origin : MutationOrigin) (before : HistoryCapture)
    (after : T) (afterFingerprint : HistoryFingerprint) :
    HistoryInvariant limits (hostNext s (.recordManual origin before after afterFingerprint))
      (g.next s (.recordManual origin before after afterFingerprint)) := by
  rcases recordManual_cases s.history origin (before.of s.live) afterFingerprint with
    ⟨outcome, hcall, hother⟩ | ⟨hopen, hpend, hbytes, hcall⟩
  · have hghost : g.next s (.recordManual origin before after afterFingerprint) =
        { g with timeline := g.timeline.edit after } := by
      simp only [next, hcall]
    rw [hghost, hostNext, hcall]
    exact hinv.edit after
  · have hfits : (before.of s.live).bytes ≤ limits.maxBytes := by
      rw [hinv.limits_eq] at hbytes
      exact hbytes.trans hinv.admissible.checkpoint_le
    have hsame : { s.history with opened := none } = s.history := by rw [← hopen]
    have hnone : g.opened = none := by rw [← hinv.opened_eq, hopen, map_none]
    have hghost : g.next s (.recordManual origin before after afterFingerprint) =
        { timeline := (g.timeline.record s.live).edit after
          opened := none } := by
      simp only [next, hcall, hnone]
    have hrec := hinv.record hfits hpend
    rw [hsame] at hrec
    rw [hghost, hostNext, hcall]
    exact hrec.edit after

theorem HistoryInvariant.prepareRestore (direction : HistoryRestoreDirection) :
    HistoryInvariant limits (s.prepare (s.history.prepareRestore direction)) g := by
  rcases prepareRestore_cases s.history direction with
    ⟨error, hcall⟩ | hcall | ⟨target, token, nextToken, hopen, htgt, hcall⟩
  · rw [HistoryHost.prepare, hcall]
    exact hinv
  · rw [HistoryHost.prepare, hcall]
    exact hinv
  · rw [HistoryHost.prepare, hcall]
    refine ⟨hinv.admissible, hinv.limits_eq, hinv.present_eq,
      ⟨hinv.stacked.retains, hinv.stacked.undoBytes_eq,
        hinv.stacked.redoBytes_eq⟩, hinv.opened_eq, hinv.entries_le,
      hinv.bytes_le, ?_, ?_⟩
    · intro hsome
      have hnone : s.history.opened.isSome = true := hsome
      rw [hopen] at hnone
      cases hnone
    · intro pending hpend
      cases hpend
      refine ⟨_, rfl, rfl, ?_⟩
      cases direction with
      | undo | redo => exact htgt

theorem HistoryInvariant.rejectRestore (token : HistoryRestoreToken) :
    HistoryInvariant limits (hostNext s (.rejectRestore token)) g := by
  rcases rejectRestore_cases s.history token with ⟨error, hcall⟩ | hcall
  · rw [hostNext, hcall]
    exact hinv
  · rw [hostNext, hcall]
    exact ⟨hinv.admissible, hinv.limits_eq, hinv.present_eq,
      ⟨hinv.stacked.retains, hinv.stacked.undoBytes_eq,
        hinv.stacked.redoBytes_eq⟩, hinv.opened_eq, hinv.entries_le,
      hinv.bytes_le, fun _ => rfl, nofun⟩

theorem HistoryInvariant.commitRestore (token : HistoryRestoreToken) (current : HistoryCapture) :
    HistoryInvariant limits (hostNext s (.commitRestore token current))
      (g.next s (.commitRestore token current)) := by
  rcases commitRestore_cases s.history token (current.of s.live) with
    ⟨error, hcall⟩ | ⟨pending, target, hpend, hbytes, htgt, hcall⟩
  · simp only [hostNext, next, HistoryHost.install, hcall]
    exact hinv
  · obtain ⟨candidate, hprep, -, hcand⟩ := hinv.prepared pending hpend
    obtain rfl := Option.some.inj (htgt.symm.trans hcand)
    have hopen := hinv.opened_of_pending hpend
    have hadm := hinv.history_admissible
    have hfits : (current.of s.live).bytes ≤ limits.maxBytes := by
      rw [hinv.limits_eq] at hbytes
      exact hbytes.trans hinv.admissible.checkpoint_le
    have hstacked : Stacked g.timeline { s.history with pending := none } :=
      ⟨hinv.stacked.retains, hinv.stacked.undoBytes_eq, hinv.stacked.redoBytes_eq⟩
    have hback : ({ s.history with pending := none }.restoreStack
        pending.direction).getLast? = some candidate.target := by
      cases hdir : pending.direction with
      | undo | redo => rwa [hdir] at htgt
    have hcur : (current.of s.live).state = g.timeline.present := hinv.present_eq.symm
    obtain ⟨z', hz', hpres, hmoved, hents, htot, hlim, hclosed,
      hset⟩ := restore_spec hstacked hadm hcur (hinv.bytes_room hfits) hback
    have hnone : g.opened = none := by rw [← hinv.opened_eq, hopen, map_none]
    have hghost : g.next s (.commitRestore token current) = { timeline := z', opened := none } := by
      simp [next, hcall, hpend, hz', hnone]
    have hhost : hostNext s (.commitRestore token current) =
        { s with
          history := (({ s.history with pending := none }.moveRestored
            pending.direction candidate.target (current.of s.live)).trimToLimits).bumpGeneration
          live := candidate.target.state } := by
      simp only [hostNext, HistoryHost.install, hcall, hprep]
    rw [hghost, hhost]
    exact historyInvariant_of_settled hinv.admissible (hlim.trans hinv.limits_eq) hmoved hpres
      (hents.trans_eq (congrArg maxEntries hinv.limits_eq))
      (htot.trans_eq (congrArg maxBytes hinv.limits_eq))
      (hclosed.trans hopen) hset

theorem HistoryInvariant.next (call : HistoryCall T) :
    HistoryInvariant limits (hostNext s call) (g.next s call) := by
  cases call with
  | edit world => exact hinv.edit world
  | beginGesture id origin before => exact hinv.beginGesture id origin before
  | finishGesture id afterFingerprint => exact hinv.finishGesture id afterFingerprint
  | cancelGesture id => exact hinv.cancelGesture id
  | recordManual origin before after afterFingerprint =>
    exact hinv.recordManual origin before after afterFingerprint
  | prepareUndo => exact hinv.prepareRestore .undo
  | prepareRedo => exact hinv.prepareRestore .redo
  | rejectRestore token => exact hinv.rejectRestore token
  | commitRestore token current => exact hinv.commitRestore token current

end

section

variable {limits : HistoryLimits} {world : T} {s : HistoryHost T} {g : HistoryGhost T}

theorem historyInvariant_of_reachable (h : (historyRuns limits world).Reachable (s, g)) :
    HistoryInvariant limits s g := by
  have hall := h.invariant (P := fun p => HistoryInvariant limits p.1 p.2) ?_ ?_
  · exact hall
  · rintro ⟨⟨history, live, prepared⟩, g⟩ ⟨⟨hlim, hlive, -⟩, hghost⟩
    simp only at hlim hlive hghost
    subst hlive hghost
    unfold withLimits at hlim
    cases hbdd : limits.bounded with
    | error e =>
      rw [hbdd] at hlim
      cases hlim
    | ok limits' =>
      obtain ⟨rfl, hadm⟩ := admissible_of_bounded hbdd
      rw [hbdd] at hlim
      cases hlim
      exact historyInvariant_of_settled hadm rfl ⟨⟨List.nil_suffix, List.nil_prefix⟩, rfl, rfl⟩ rfl
        (zero_le _) (zero_le _) rfl rfl
  · rintro ⟨s, g⟩ call ⟨t, g'⟩ hinv hstep
    obtain ⟨hworld, hghost⟩ := Machine.observe_step_eq_some.mp hstep
    subst hghost
    cases hworld
    exact hinv.next call

def HistoryCall.fails (s : HistoryHost T) : HistoryCall T → Prop
  | .edit _ => False
  | .beginGesture id origin before =>
    ∃ error, (s.history.beginGesture id origin (before.of s.live)).1 = .error error
  | .finishGesture id afterFingerprint =>
    ∃ error, (s.history.finishGesture id afterFingerprint).1 = .error error
  | .cancelGesture id => ∃ error, (s.history.cancelGesture id).1 = .error error
  | .recordManual origin before _ afterFingerprint =>
    ∃ error, (s.history.recordManual origin (before.of s.live) afterFingerprint).1 = .error error
  | .prepareUndo => ∃ error, s.history.prepareUndo.1 = .error error
  | .prepareRedo => ∃ error, s.history.prepareRedo.1 = .error error
  | .rejectRestore token => ∃ error, (s.history.rejectRestore token).1 = .error error
  | .commitRestore token current =>
    ∃ error, (s.history.commitRestore token (current.of s.live)).1 = .error error

theorem prepareRestore_of_error {history : ManualHistory T} {direction : HistoryRestoreDirection}
    {error : HistoryError} (h : (history.prepareRestore direction).1 = .error error) :
    history.prepareRestore direction = (.error error, history) := by
  rcases prepareRestore_cases history direction with
    ⟨error', hcall⟩ | hcall | ⟨target, token, nextToken, -, -, hcall⟩
  · rw [hcall] at h ⊢
    exact congrArg (·, history) h
  · rw [hcall] at h
    cases h
  · rw [hcall] at h
    cases h

theorem history_of_fails {call : HistoryCall T} (h : call.fails s) :
    (hostNext s call).history = s.history := by
  cases call
  case edit world => exact h.elim
  all_goals obtain ⟨error, herr⟩ := h
  case beginGesture id origin before =>
    rcases beginGesture_cases s.history id origin (before.of s.live) with
      ⟨outcome, hcall, -⟩ | ⟨-, -, -, hcall⟩
    · rw [hostNext, hcall]
    · simp [hcall] at herr
  case finishGesture id afterFingerprint =>
    rcases finishGesture_cases s.history id afterFingerprint with
      ⟨outcome, hcall⟩ | ⟨opened, -, -, hcall | hcall⟩
    · rw [hostNext, hcall]
    · simp [hcall] at herr
    · simp [hcall] at herr
  case cancelGesture id =>
    rcases cancelGesture_cases s.history id with ⟨outcome, hcall⟩ | ⟨-, hcall⟩
    · rw [hostNext, hcall]
    · simp [hcall] at herr
  case recordManual origin before after afterFingerprint =>
    rcases recordManual_cases s.history origin (before.of s.live)
      afterFingerprint with ⟨outcome, hcall, -⟩ | ⟨-, -, -, hcall⟩
    · rw [hostNext, hcall]
    · simp [hcall] at herr
  case prepareUndo =>
    have hcall : s.history.prepareUndo = (.error error, s.history) := prepareRestore_of_error herr
    rw [hostNext, HistoryHost.prepare, hcall]
  case prepareRedo =>
    have hcall : s.history.prepareRedo = (.error error, s.history) := prepareRestore_of_error herr
    rw [hostNext, HistoryHost.prepare, hcall]
  case rejectRestore token =>
    rcases rejectRestore_cases s.history token with ⟨outcome, hcall⟩ | hcall
    · rw [hostNext, hcall]
    · simp [hcall] at herr
  case commitRestore token current =>
    rcases commitRestore_cases s.history token (current.of s.live) with
      ⟨outcome, hcall⟩ | ⟨pending, target, -, -, -, hcall⟩
    · rw [hostNext, HistoryHost.install, hcall]
    · simp [hcall] at herr

/-- In every run, the undo stack is a contiguous run of past worlds that ends
immediately before the live one, the redo stack a contiguous run of future
worlds that starts immediately after it, the byte totals are exact, the limits
hold with the open gesture included, and a failing call changes nothing. -/
theorem manualHistory_timeline (h : (historyRuns limits world).Reachable (s, g)) :
    (g.timeline.present = s.live ∧
      s.history.undo.map (·.state) <:+ g.timeline.past ∧
      (s.history.redo.map (·.state)).reverse <+: g.timeline.future) ∧
    (s.history.undoBytes = (s.history.undo.map (·.bytes)).sum ∧
      s.history.redoBytes = (s.history.redo.map (·.bytes)).sum) ∧
    (s.history.undo.length + s.history.redo.length +
        (if s.history.opened.isSome then 1 else 0) ≤ limits.maxEntries ∧
      s.history.undoBytes + s.history.redoBytes +
        s.history.opened.elim 0 (·.before.bytes) ≤ limits.maxBytes) ∧
    ∀ call : HistoryCall T, call.fails s →
      (hostNext s call).history.undo = s.history.undo ∧
      (hostNext s call).history.redo = s.history.redo ∧
      (hostNext s call).history.opened = s.history.opened ∧
      (hostNext s call).history.pending = s.history.pending := by
  have hinv := historyInvariant_of_reachable h
  refine ⟨⟨hinv.present_eq, hinv.stacked.retains.undo_suffix, hinv.stacked.retains.redo_prefix⟩,
    ⟨hinv.stacked.undoBytes_eq, hinv.stacked.redoBytes_eq⟩, ⟨?_, hinv.bytes_le⟩, ?_⟩
  · have hentries := hinv.entries_le
    rwa [entryCount, Bool.toNat, Bool.cond_eq_ite] at hentries
  · intro call hfails
    rw [history_of_fails hfails]
    exact ⟨rfl, rfl, rfl, rfl⟩

/-- A gesture that moves a value from one to two under the default limits. -/
theorem manualHistory_timeline_gesture :
    ∃ (s : HistoryHost ℕ) (g : HistoryGhost ℕ),
      (historyRuns HistoryLimits.default 1).Reachable (s, g) ∧
      s.history.undo.map (·.state) = [1] ∧ [1] <:+ g.timeline.past ∧
      g.timeline.present = 2 ∧ s.history.undoBytes = 8 := by
  let before : HistoryCapture := ⟨[1], 8, "Move", "transform"⟩
  let id : HistoryGestureId := ⟨7, by decide⟩
  let fresh : ManualHistory ℕ := ⟨default, [], [], 0, 0, none, none, 1, 1⟩
  let opened : ManualHistory ℕ :=
    { fresh with
      opened := some ⟨id, .nativeManual, before.of 1⟩
      generation := 2 }
  let recorded : ManualHistory ℕ :=
    { fresh with undo := [before.of 1], undoBytes := 8, generation := 3 }
  have hbegin : fresh.beginGesture id .nativeManual (before.of 1) = (.ok .recorded, opened) := by
    unfold beginGesture makeRoomForOpen
    rw [evictWhile_of_within (by decide)]
    rfl
  let pushed : ManualHistory ℕ := { opened with opened := none }.clearRedo.pushUndo (before.of 1)
  have htrim : pushed.trimToLimits = pushed := evictWhile_of_within (by decide)
  have hfinish : opened.finishGesture id [2] = (.ok .recorded, recorded) := by
    calc opened.finishGesture id [2] = (.ok .recorded, pushed.trimToLimits.bumpGeneration) := rfl
      _ = (.ok .recorded, recorded) := by
          rw [htrim]
          rfl
  have hrun : (historyMachine default 1).exec
      ⟨fresh, 1, none⟩ [.beginGesture id .nativeManual before, .edit 2,
        .finishGesture id [2]] = some ⟨recorded, 2, none⟩ := by
    simp [Machine.exec, historyMachine, hostNext, hbegin, hfinish]
  have hreach : ∃ g, (historyRuns default 1).Reachable (⟨recorded, 2, none⟩, g) :=
    Machine.Reachable.exists_observe (Machine.reachable_of_exec ⟨rfl, rfl, rfl⟩ hrun)
  obtain ⟨g, hreach⟩ := hreach
  obtain ⟨⟨hpresent, hpast, -⟩, ⟨hbytes, -⟩, -, -⟩ := manualHistory_timeline hreach
  exact ⟨_, g, hreach, rfl, hpast, hpresent, hbytes⟩

end

end CollideOScope.History
