import CollideOScope.Osc.Exact
import CollideOScope.Support.Table
import Mathlib.Data.List.TakeWhile

/-!
# Echoes of feedback

Feedback waits in a table until the worker sends it and remembers what it put
on the wire.  A message that comes back from the same peer with the same value
soon after is an echo, which is not taken as a control.  The locks are free.
-/

namespace CollideOScope.Osc

open Nat List

open CollideOScope.Control

def oscFeedbackKeysCapacity : ℕ := 512

def oscLoopSuppressionWindow : ℕ := 100000000

structure FeedbackEntry where
  address : RuntimeControlAddress
  value : F32

structure RecentFeedback where
  peer : SocketAddr
  address : RuntimeControlAddress
  valueBits : UInt32
  sentAt : ℕ

abbrev FeedbackKey := SocketAddr × RuntimeControlAddress

structure OscShared where
  feedback : Table FeedbackKey FeedbackEntry
  recent : List RecentFeedback

/-- The loop body of `queue_feedback`. -/
def queueFor (address : RuntimeControlAddress) (value : F32)
    (origin : AutomationOrigin) (shared : OscShared) (peer : SocketAddr) :
    OscShared :=
  if origin = .osc peer then shared
  else if (shared.feedback.find (peer, address)).isNone ∧
      oscFeedbackKeysCapacity ≤ shared.feedback.size then shared
  else
    { shared with
      feedback := shared.feedback.insert (peer, address) ⟨address, value.clamp .zero .one⟩ }

/-- `queue_feedback`, for the peers of the configuration. -/
def queueFeedback (peers : List SocketAddr) (shared : OscShared) (address : RuntimeControlAddress)
    (value : F32) (origin : AutomationOrigin) : OscShared :=
  if value.isFinite then peers.foldl (queueFor address value origin) shared
  else shared

/-- The list of what was sent loses its oldest entry at its capacity. -/
def remember (recent : List RecentFeedback) (entry : RecentFeedback) : List RecentFeedback :=
  (if recent.length = oscFeedbackKeysCapacity then recent.tail else recent) ++ [entry]

/-- The worker takes the entry of a key, which is the least one there, and sends
it. -/
def sendFeedback (shared : OscShared) (key : FeedbackKey) (now : ℕ) : Option Bytes × OscShared :=
  match shared.feedback.find key with
  | none => (none, shared)
  | some entry =>
    let shared := { shared with feedback := shared.feedback.erase key }
    match encodeFeedback entry.address entry.value with
    | .error _ => (none, shared)
    | .ok bytes =>
      (some bytes, { shared with
        recent := remember shared.recent ⟨key.1, entry.address, entry.value.bits, now⟩ })

inductive FeedbackCall
  | queue (peers : List SocketAddr) (address : RuntimeControlAddress)
      (value : F32) (origin : AutomationOrigin)
  | send (key : FeedbackKey) (now : ℕ)

def FeedbackCall.perform (shared : OscShared) : FeedbackCall → OscShared
  | queue peers address value origin => queueFeedback peers shared address value origin
  | send key now => (sendFeedback shared key now).2

def FeedbackCall.isSend : FeedbackCall → Bool
  | queue .. => false
  | send .. => true

def OscEvent.wireValue (event : OscEvent) : Option F32 :=
  match event.value with
  | .absolute value => some value
  | .trigger => if event.address.isSceneAction then some .one else none
  | .gate value =>
    if event.address.isSceneAction then some (if value then .one else .zero)
    else none
  | .delta _ => none

/-- `is_osc_feedback_echo`, with the list it leaves. -/
def isOscFeedbackEcho (recent : List RecentFeedback) (now : ℕ)
    (event : OscEvent) : Bool × List RecentFeedback :=
  match event.origin, event.wireValue with
  | .osc peer, some value =>
    if value.isFinite then
      let recent := recent.dropWhile fun entry =>
        decide (oscLoopSuppressionWindow < now - entry.sentAt)
      (recent.any fun entry =>
        entry.peer = peer && entry.address = event.address && entry.valueBits = value.bits, recent)
    else (false, recent)
  | _, _ => (false, recent)

/-- A value that is queued for a peer and sent to it is recognised when the
packet comes back within the window, behind fewer than 512 further sends. -/
def NeverEchoes (address : RuntimeControlAddress) (value : F32) : Prop :=
  ∀ peers (before : OscShared) origin peer sentAt bytes sent,
    (queueFeedback peers before address value origin).feedback.find
      (peer, address) = some ⟨address, value.clamp .zero .one⟩ →
    sendFeedback (queueFeedback peers before address value origin)
      (peer, address) sentAt = (some bytes, sent) →
    ∀ (calls : List FeedbackCall) now,
      calls.countP FeedbackCall.isSend < oscFeedbackKeysCapacity →
      now - sentAt ≤ oscLoopSuppressionWindow →
      ∃ events, decodePacket bytes peer = .ok events ∧
        ∀ event ∈ events,
          (isOscFeedbackEcho (calls.foldl FeedbackCall.perform sent).recent now event).1 = true

variable {recent : List RecentFeedback}

theorem suffix_remember {newest : List RecentFeedback} (entry : RecentFeedback)
    (h : newest <:+ recent) (hshort : newest.length < oscFeedbackKeysCapacity) :
    newest ++ [entry] <:+ remember recent entry := by
  unfold remember
  split
  · next hfull =>
      obtain ⟨older, rfl⟩ := h
      cases older with
      | nil =>
        rw [nil_append] at hfull
        omega
      | cons first older => exact ⟨older, by simp⟩
  · obtain ⟨older, rfl⟩ := h
    exact ⟨older, by simp⟩

theorem queueFor_recent (address : RuntimeControlAddress) (value : F32)
    (origin : AutomationOrigin) (shared : OscShared) (peer : SocketAddr) :
    (queueFor address value origin shared peer).recent = shared.recent := by
  unfold queueFor
  split
  · rfl
  · split
    · rfl
    · rfl

theorem queueFeedback_recent (peers : List SocketAddr) (shared : OscShared)
    (address : RuntimeControlAddress) (value : F32) (origin : AutomationOrigin) :
    (queueFeedback peers shared address value origin).recent = shared.recent := by
  unfold queueFeedback
  split
  · induction peers generalizing shared with
    | nil => rfl
    | cons peer peers ih => rw [foldl_cons, ih, queueFor_recent]
  · rfl

/-- The entry is remembered, with at most so many others behind it. -/
def Remembered (entry : RecentFeedback) (n : ℕ) (recent : List RecentFeedback) : Prop :=
  ∃ later, entry :: later <:+ recent ∧ later.length ≤ n

variable {entry : RecentFeedback} {shared : OscShared} {n : ℕ}

theorem Remembered.send (h : Remembered entry n shared.recent)
    (hn : n + 1 < oscFeedbackKeysCapacity) (key : FeedbackKey) (now : ℕ) :
    Remembered entry (n + 1) (sendFeedback shared key now).2.recent := by
  obtain ⟨later, hsuf, hlater⟩ := h
  have hkept : Remembered entry (n + 1) shared.recent := ⟨later, hsuf, le_succ_of_le hlater⟩
  unfold sendFeedback
  split
  · exact hkept
  · next found hfound =>
    split
    · exact hkept
    · have hshort : (entry :: later).length < oscFeedbackKeysCapacity := by
        rw [length_cons]
        omega
      dsimp only
      have hbehind := suffix_remember (⟨key.1, found.address,
        found.value.bits, now⟩ : RecentFeedback) hsuf hshort
      rw [cons_append] at hbehind
      refine ⟨_, hbehind, ?_⟩
      rw [length_append, length_singleton]
      omega

theorem Remembered.run (h : Remembered entry n shared.recent) {calls : List FeedbackCall}
    (hcalls : n + calls.countP FeedbackCall.isSend < oscFeedbackKeysCapacity) :
    entry ∈ (calls.foldl FeedbackCall.perform shared).recent := by
  induction calls generalizing n shared with
  | nil =>
    obtain ⟨later, hsuf, -⟩ := h
    exact hsuf.subset mem_cons_self
  | cons call calls ih =>
    cases call with
    | queue peers address value origin =>
      refine ih (n := n) ?_ ?_
      · rw [FeedbackCall.perform, queueFeedback_recent]
        exact h
      · rw [countP_cons_of_neg Bool.false_ne_true] at hcalls
        exact hcalls
    | send key now =>
      rw [countP_cons_of_pos rfl] at hcalls
      exact ih (h.send (by omega) key now) (by omega)

theorem remembered_sent (recent : List RecentFeedback)
    (entry : RecentFeedback) : Remembered entry 0 (remember recent entry) :=
  ⟨[], ⟨_, rfl⟩, le_refl _⟩

theorem sendFeedback_found {key : FeedbackKey} {entry : FeedbackEntry}
    (hent : shared.feedback.find key = some entry) {bytes : Bytes}
    (henc : encodeFeedback entry.address entry.value = .ok bytes) (now : ℕ) :
    sendFeedback shared key now = (some bytes,
      ⟨shared.feedback.erase key, remember shared.recent
        ⟨key.1, entry.address, entry.value.bits, now⟩⟩) := by
  rw [sendFeedback, hent]
  simp only [henc]

variable {value : F32} {event : OscEvent} {now : ℕ}

theorem isEcho_of_mem (hent : entry ∈ recent) (hnow : now - entry.sentAt ≤ oscLoopSuppressionWindow)
    (horig : event.origin = .osc entry.peer) (haddr : entry.address = event.address)
    (hval : event.wireValue = some value) (hfin : value.isFinite)
    (hbits : entry.valueBits = value.bits) :
    (isOscFeedbackEcho recent now event).1 = true := by
  unfold isOscFeedbackEcho
  rw [horig, hval]
  simp only [hfin, if_true, any_eq_true]
  refine ⟨entry, ?_, by simp [haddr, hbits]⟩
  have hold := takeWhile_append_dropWhile (l := recent)
    (p := fun entry : RecentFeedback => decide (oscLoopSuppressionWindow < now - entry.sentAt))
  rw [← hold, mem_append] at hent
  rcases hent with hgone | hkept
  · have hlate := mem_takeWhile_imp hgone
    rw [decide_eq_true_eq] at hlate
    omega
  · exact hkept

theorem wireValue_of_isEcho (h : (isOscFeedbackEcho recent now event).1 = true) :
    ∃ value, event.wireValue = some value ∧ ∃ entry ∈ recent, entry.valueBits = value.bits := by
  unfold isOscFeedbackEcho at h
  split at h
  · next peer value horig hval =>
      refine ⟨value, hval, ?_⟩
      split at h
      · obtain ⟨entry, hent, hmatch⟩ := any_eq_true.mp h
        simp only [Bool.and_eq_true, decide_eq_true_eq] at hmatch
        exact ⟨entry, (dropWhile_suffix _).subset hent, hmatch.2⟩
      · cases h
  · cases h

theorem wireValue_event_iff (address : RuntimeControlAddress) (value : F32) (peer : SocketAddr) :
    ((⟨address, value⟩ : DecodedOscMessage).event peer).wireValue = some value ↔
      (address.isSceneAction = true → value = .zero ∨ value = .one) := by
  unfold OscEvent.wireValue DecodedOscMessage.event
  cases hscene : address.isSceneAction with
  | false => simp
  | true =>
    by_cases hhalf : F32.half.le value = true
    · have hzero : value ≠ .zero := by
        rintro rfl
        exact absurd hhalf (by decide +kernel)
      simp [hhalf, hzero, eq_comm]
    · have hone : value ≠ .one := by
        rintro rfl
        exact hhalf (by decide +kernel)
      simp [hhalf, hone, eq_comm]

theorem isFinite_clamp (h : value.isFinite) : (value.clamp .zero .one).isFinite :=
  F32.isFinite_of_unit (F32.clamp_unit h).1 (F32.clamp_unit h).2

theorem wireValue_of_neverEchoes {address : RuntimeControlAddress}
    (haddr : ∀ slot, address ≠ .legacyMidiSlot slot)
    (hval : value.isFinite) (hecho : NeverEchoes address value) :
    address.isSceneAction = true →
      value.clamp .zero .one = .zero ∨ value.clamp .zero .one = .one := by
  rw [← wireValue_event_iff address _ (.v4 0 0)]
  obtain ⟨bytes, henc, hdec⟩ := decodePacket_encodeFeedback address
    (value.clamp .zero .one) (.v4 0 0) haddr (isFinite_clamp hval)
  have hqueue : queueFeedback [.v4 0 0] ⟨.empty, []⟩ address value .midi =
      ⟨.insert .empty (.v4 0 0, address) ⟨address, value.clamp .zero .one⟩, []⟩ := by
    simp [queueFeedback, hval, queueFor, Table.size, Table.total,
      Table.empty, oscFeedbackKeysCapacity]
  have hfind : (queueFeedback [.v4 0 0] ⟨.empty, []⟩ address value
      .midi).feedback.find (.v4 0 0, address) = some ⟨address, value.clamp .zero .one⟩ := by
    rw [hqueue, Table.find_insert, if_pos rfl]
  have hsend := sendFeedback_found hfind henc 0
  obtain ⟨events, hevs, hall⟩ := hecho [.v4 0 0] ⟨.empty, []⟩ .midi
    (.v4 0 0) 0 bytes _ hfind hsend [] 0 (by decide) (zero_le _)
  rw [hdec, F32.clamp_clamp hval] at hevs
  cases hevs
  obtain ⟨wire, hwire, entry, hent, hbits⟩ := wireValue_of_isEcho (hall _ (mem_singleton_self _))
  rw [hwire]
  rw [hqueue, foldl_nil] at hent
  obtain rfl := mem_singleton.mp hent
  exact congrArg some (congrArg F32.mk hbits.symm)

/-- Feedback of an address is recognised when it comes back exactly where the
address is no scene action, or the value put on the wire is zero or one. -/
theorem feedback_never_echoes_iff (address : RuntimeControlAddress) (value : F32)
    (haddress : ∀ slot, address ≠ .legacyMidiSlot slot) (hvalue : value.isFinite) :
    NeverEchoes address value ↔
      (address.isSceneAction = true →
        value.clamp .zero .one = .zero ∨ value.clamp .zero .one = .one) := by
  refine ⟨wireValue_of_neverEchoes haddress hvalue, ?_⟩
  rw [← wireValue_event_iff address _ (.v4 0 0)]
  intro hwire peers before origin peer sentAt bytes sent hfind hsend calls now hcalls hnow
  obtain ⟨encoded, hencoded, hdecode⟩ :=
    decodePacket_encodeFeedback address _ peer haddress (isFinite_clamp hvalue)
  rw [sendFeedback_found hfind hencoded] at hsend
  obtain ⟨hbytes, rfl⟩ := Prod.mk.inj hsend
  cases hbytes
  refine ⟨_, hdecode, ?_⟩
  rw [F32.clamp_clamp hvalue]
  intro event hevent
  obtain rfl := mem_singleton.mp hevent
  refine isEcho_of_mem ((remembered_sent _ _).run ?_) hnow rfl rfl hwire (isFinite_clamp hvalue) rfl
  rwa [zero_add]

theorem feedback_never_echoes_iff_crossfade :
    (∀ slot, RuntimeControlAddress.master .opacity ≠ .legacyMidiSlot slot) ∧
    F32.half.isFinite ∧
    (NeverEchoes (.master .opacity) .half ↔
      ((RuntimeControlAddress.master .opacity).isSceneAction = true →
        F32.half.clamp .zero .one = .zero ∨ F32.half.clamp .zero .one = .one)) := by
  have haddress : ∀ slot, RuntimeControlAddress.master .opacity ≠ .legacyMidiSlot slot := by
    intro slot h
    cases h
  exact ⟨haddress, by decide, feedback_never_echoes_iff _ _ haddress (by decide)⟩

theorem half_lit_scene_echoes : ¬NeverEchoes (.sceneTrigger ⟨4, by decide⟩) .half := by
  intro hecho
  have hcases := wireValue_of_neverEchoes (fun _ h => by cases h) (by decide) hecho rfl
  exact absurd hcases (by decide +kernel)

/-- The value was queued for the peer of the key, which is not its origin. -/
def Queued (calls : List FeedbackCall) (key : FeedbackKey) (value : F32) : Prop :=
  ∃ peers raw origin, .queue peers key.2 raw origin ∈ calls ∧ key.1 ∈ peers ∧
    origin ≠ .osc key.1 ∧ raw.isFinite ∧ value = raw.clamp .zero .one

/-- The table and the list are bounded, and the calls account for what they hold. -/
structure Accounted (calls : List FeedbackCall) (shared : OscShared) : Prop where
  size_le : shared.feedback.size ≤ oscFeedbackKeysCapacity
  length_le : shared.recent.length ≤ oscFeedbackKeysCapacity
  queued : ∀ key entry, shared.feedback.find key = some entry →
    entry.address = key.2 ∧ Queued calls key entry.value
  sent : ∀ entry ∈ shared.recent, .send (entry.peer, entry.address) entry.sentAt ∈ calls ∧
    ∃ value, Queued calls (entry.peer, entry.address) value ∧ entry.valueBits = value.bits

variable {calls : List FeedbackCall}

theorem Accounted.mono {more : List FeedbackCall} (h : Accounted calls shared)
    (hsub : calls ⊆ more) : Accounted more shared where
  size_le := h.size_le
  length_le := h.length_le
  queued key entry hfind := by
    obtain ⟨haddr, peers, raw, origin, hmem, hrest⟩ := h.queued key entry hfind
    exact ⟨haddr, peers, raw, origin, hsub hmem, hrest⟩
  sent entry hent := by
    obtain ⟨hsend, value, ⟨peers, raw, origin, hmem, hrest⟩, hbits⟩ := h.sent entry hent
    exact ⟨hsub hsend, value, ⟨peers, raw, origin, hsub hmem, hrest⟩, hbits⟩

theorem Accounted.queueFor (h : Accounted calls shared) {peers : List SocketAddr}
    {address : RuntimeControlAddress} {origin : AutomationOrigin} {peer : SocketAddr}
    (hcall : .queue peers address value origin ∈ calls) (hfin : value.isFinite)
    (hpeer : peer ∈ peers) : Accounted calls (queueFor address value origin shared peer) := by
  unfold Osc.queueFor
  split
  · exact h
  next horigin =>
  split
  · exact h
  next hroom =>
  refine ⟨?_, h.length_le, ?_, h.sent⟩
  · cases hfind : shared.feedback.find (peer, address) with
    | none =>
      rw [Table.size_insert _ hfind]
      simp only [hfind, Option.isNone_none, true_and, not_le] at hroom
      omega
    | some entry =>
      rw [Table.insert, dif_neg (by simp [hfind]), Table.size_adjust]
      exact h.size_le
  · intro key entry hfind
    rw [Table.find_insert] at hfind
    split at hfind
    · next heq =>
      cases hfind
      subst heq
      exact ⟨rfl, peers, value, origin, hcall, hpeer, horigin, hfin, rfl⟩
    · exact h.queued key entry hfind

theorem Accounted.queueFeedback (h : Accounted calls shared) {peers : List SocketAddr}
    {address : RuntimeControlAddress} {origin : AutomationOrigin}
    (hcall : .queue peers address value origin ∈ calls) :
    Accounted calls (queueFeedback peers shared address value origin) := by
  unfold Osc.queueFeedback
  split
  · next hfin =>
    refine foldlRecOn peers _ h fun shared hshared peer hpeer => ?_
    exact hshared.queueFor hcall hfin hpeer
  · exact h

theorem Accounted.send (h : Accounted calls shared) {key : FeedbackKey} {now : ℕ}
    (hcall : .send key now ∈ calls) : Accounted calls (sendFeedback shared key now).2 := by
  have herased (recent : List RecentFeedback) (hlen : recent.length ≤ oscFeedbackKeysCapacity)
      (hsent : ∀ entry ∈ recent, .send (entry.peer, entry.address) entry.sentAt ∈ calls ∧
        ∃ value, Queued calls (entry.peer, entry.address) value ∧ entry.valueBits = value.bits) :
      Accounted calls ⟨shared.feedback.erase key, recent⟩ := by
    refine ⟨(Table.size_erase_le _ _).trans h.size_le, hlen, fun other entry hfind => ?_, hsent⟩
    rw [Table.find_erase] at hfind
    split at hfind
    · cases hfind
    · exact h.queued other entry hfind
  unfold sendFeedback
  split
  · exact h
  next entry hfind =>
  obtain ⟨haddr, hqueued⟩ := h.queued key entry hfind
  split
  · exact herased _ h.length_le h.sent
  · refine herased _ ?_ ?_
    · have hlen := h.length_le
      simp only [remember, length_append, length_singleton]
      split
      · rw [length_tail]
        unfold oscFeedbackKeysCapacity at *
        omega
      · omega
    · intro other hother
      obtain hold | hnew := mem_append.mp hother
      · refine h.sent other ?_
        split at hold
        · exact mem_of_mem_tail hold
        · exact hold
      · obtain rfl := mem_singleton.mp hnew
        exact ⟨haddr ▸ hcall, entry.value, haddr ▸ hqueued, rfl⟩

theorem accounted_of_run (calls : List FeedbackCall) :
    Accounted calls (calls.foldl FeedbackCall.perform ⟨.empty, []⟩) := by
  induction calls using reverseRecOn with
  | nil =>
    exact ⟨zero_le _, zero_le _, fun _ _ h => by simp [Table.find, Table.empty] at h,
      fun _ h => absurd h not_mem_nil⟩
  | append_singleton calls call ih =>
    have hcall : call ∈ calls ++ [call] := mem_append_right _ (mem_singleton_self _)
    have hkept := ih.mono (subset_append_left calls [call])
    rw [foldl_append, foldl_cons, foldl_nil]
    cases call with
    | send key now => exact hkept.send hcall
    | queue peers address value origin => exact hkept.queueFeedback hcall

end CollideOScope.Osc
