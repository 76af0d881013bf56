import CollideOScope.Web.HistoryGesture

/-!
# Gestures do not interleave

A reader of the actions that were drained and are queued follows the gestures:
a Begin opens one, actions inside it bypass history or carry its one key and
come from its owner, and an End or a Cancel of the same gesture closes it.  The
recorded owner agrees with what the reader follows in every state that is
reached without evicting a boundary from a full queue.
-/

namespace CollideOScope.Web

open Actions ActionQueue List Option BrowserHistoryGesture GestureCall

/-- The gesture that is open, with the key of the values seen in it. -/
structure OpenGesture where
  (clientId gestureId : UInt64)
  key : Option String

namespace OpenGesture

/-- A boundary opens a gesture when none is open, or closes the open one for its
owner; a Cancel closes it only while no value was seen in it. -/
def followBoundary (gesture : Option OpenGesture) (client : UInt64) :
    HistoryBoundary → Option (Option OpenGesture)
  | .begin gestureId =>
    match gesture with
    | none => some (some ⟨client, gestureId, none⟩)
    | some _ => none
  | .end gestureId =>
    match gesture with
    | none => none
    | some owner =>
      if owner.clientId = client ∧ owner.gestureId = gestureId then some none
      else none
  | .cancel gestureId =>
    match gesture with
    | none => none
    | some owner =>
      if owner.clientId = client ∧ owner.gestureId = gestureId ∧ owner.key = none then some none
      else none

/-- An action is free outside a gesture.  Inside one it bypasses history, or its
owner sent it and it carries the one key. -/
def followAction (gesture : Option OpenGesture) (client : UInt64)
    (action : WebAction) : Option (Option OpenGesture) :=
  match gesture with
  | none => some none
  | some owner =>
    if action.isPerformanceOnlyForHistory then some (some owner)
    else
      match action.coalesceKey with
      | none => none
      | some key =>
        if owner.clientId = client ∧ (owner.key = none ∨ owner.key = some key)
        then some (some { owner with key := some key })
        else none

def follow (gesture : Option OpenGesture) (sent : Sent) : Option (Option OpenGesture) :=
  match sent.boundary with
  | some boundary => followBoundary gesture sent.client boundary
  | none => followAction gesture sent.client sent.action.payload

/-- Follow a list of actions; `none` when one breaks the rules. -/
def follows (gesture : Option OpenGesture) : List Sent → Option (Option OpenGesture)
  | [] => some gesture
  | sent :: rest => (follow gesture sent).bind fun next => follows next rest

theorem follows_append (gesture : Option OpenGesture) (front rest : List Sent) :
    follows gesture (front ++ rest) =
      (follows gesture front).bind fun next => follows next rest := by
  induction front generalizing gesture with
  | nil => rfl
  | cons sent front ih =>
    simp only [cons_append, follows, bind_assoc]
    congr 1
    funext next
    exact ih next

theorem follows_concat (gesture : Option OpenGesture) (front : List Sent) (sent : Sent) :
    follows gesture (front ++ [sent]) =
      (follows gesture front).bind fun next => follow next sent := by
  rw [follows_append]
  congr 1
  funext next
  simp [follows]

variable {sents : List Sent} {gesture : Option OpenGesture}

theorem follows_unbounded (h : ∀ sent ∈ sents, sent.boundary = none) :
    follows none sents = some none := by
  induction sents with
  | nil => rfl
  | cons sent sents ih =>
    obtain ⟨hsent, hsents⟩ := forall_mem_cons.mp h
    rw [follows, follow, hsent]
    exact ih hsents

/-- The same gesture with at most the same key seen. -/
def Below : Option OpenGesture → Option OpenGesture → Prop
  | none, none => True
  | some seen, some owner => seen.clientId = owner.clientId ∧
      seen.gestureId = owner.gestureId ∧
      (seen.key = none ∨ seen.key = owner.key)
  | _, _ => False

theorem below_refl (gesture : Option OpenGesture) : Below gesture gesture := by
  cases gesture with
  | none => trivial
  | some owner => exact ⟨rfl, rfl, .inr rfl⟩

theorem Below.trans {first second third : Option OpenGesture}
    (h : Below first second) (h' : Below second third) : Below first third := by
  cases first with
  | none =>
    cases second with
    | none => exact h'
    | some _ => cases h
  | some seen =>
    cases second with
    | none => cases h
    | some middle =>
      cases third with
      | none => cases h'
      | some owner =>
        obtain ⟨hcli, hgesture, hkey⟩ := h
        obtain ⟨hclient', hgesture', hkey'⟩ := h'
        refine ⟨hcli.trans hclient', hgesture.trans hgesture', ?_⟩
        rcases hkey with hkey | hkey
        · exact .inl hkey
        · rwa [hkey]

theorem below_none (h : Below gesture none) : gesture = none := by
  cases gesture with
  | none => rfl
  | some _ => cases h

theorem below_some {owner : OpenGesture} (h : Below gesture (some owner)) :
    ∃ seen, gesture = some seen ∧ seen.clientId = owner.clientId ∧
      seen.gestureId = owner.gestureId ∧
      (seen.key = none ∨ seen.key = owner.key) := by
  cases gesture with
  | none => cases h
  | some seen => exact ⟨seen, rfl, h⟩

variable {next : Option OpenGesture} {seen owner : Option OpenGesture}

theorem follow_mono {sent : Sent} (h : Below seen owner) (hfol : follow owner sent = some next) :
    ∃ after, follow seen sent = some after ∧ Below after next := by
  cases owner with
  | none =>
    obtain rfl := below_none h
    exact ⟨next, hfol, below_refl next⟩
  | some owner =>
    obtain ⟨seen, rfl, hcli, hgesture, hkey⟩ := below_some h
    unfold follow at hfol ⊢
    cases hbdry : sent.boundary with
    | some boundary =>
      rw [hbdry] at hfol
      cases boundary with
      | begin gestureId => cases hfol
      | «end» gestureId =>
        simp only [followBoundary, hcli, hgesture] at hfol ⊢
        exact ⟨next, hfol, below_refl next⟩
      | cancel gestureId =>
        simp only [followBoundary, hcli, hgesture] at hfol ⊢
        split at hfol
        · next hclose =>
            have hseen : seen.key = none := by
              rcases hkey with hkey | hkey
              · exact hkey
              · rw [hkey, hclose.2.2]
            rw [if_pos ⟨hclose.1, hclose.2.1, hseen⟩]
            exact ⟨next, hfol, below_refl next⟩
        · cases hfol
    | none =>
      rw [hbdry] at hfol
      simp only [followAction] at hfol ⊢
      split at hfol
      · next hperf =>
          cases hfol
          rw [if_pos hperf]
          exact ⟨_, rfl, hcli, hgesture, hkey⟩
      · next hauth =>
          rw [if_neg hauth]
          cases hcand : sent.action.payload.coalesceKey with
          | none => simp [hcand] at hfol
          | some key =>
            simp only [hcand] at hfol ⊢
            split at hfol
            · next howned =>
                cases hfol
                have hseen : seen.key = none ∨ seen.key = some key := by
                  rcases hkey with hkey | hkey
                  · exact .inl hkey
                  · rw [hkey]
                    exact howned.2
                rw [if_pos ⟨hcli.trans howned.1, hseen⟩]
                exact ⟨_, rfl, hcli, hgesture, .inr rfl⟩
            · cases hfol

theorem follows_mono (h : Below seen owner) (hfol : follows owner sents = some next) :
    ∃ after, follows seen sents = some after ∧ Below after next := by
  induction sents generalizing seen owner with
  | nil =>
    cases hfol
    exact ⟨seen, rfl, h⟩
  | cons sent sents ih =>
    obtain ⟨middle, hmid, hrest⟩ := bind_eq_some_iff.mp hfol
    obtain ⟨after, hafter, hbelow⟩ := follow_mono h hmid
    obtain ⟨last, hlast, hbelow⟩ := ih hbelow hrest
    exact ⟨last, bind_eq_some_iff.mpr ⟨after, hafter, hlast⟩, hbelow⟩

theorem below_follow {sent : Sent} (hbdry : sent.boundary = none)
    (hfol : follow gesture sent = some next) : Below gesture next := by
  rw [follow, hbdry] at hfol
  cases gesture with
  | none =>
    cases hfol
    trivial
  | some owner =>
    simp only [followAction] at hfol
    split at hfol
    · cases hfol
      exact below_refl _
    · cases hcand : sent.action.payload.coalesceKey with
      | none => simp [hcand] at hfol
      | some key =>
        simp only [hcand] at hfol
        split at hfol
        · next howned =>
            cases hfol
            exact ⟨rfl, rfl, howned.2⟩
        · cases hfol

theorem follows_remove {front rest : List Sent} {prior : Sent}
    (hbdry : prior.boundary = none) (hfol : follows gesture (front ++ prior :: rest) = some next) :
    ∃ after, follows gesture (front ++ rest) = some after ∧ Below after next := by
  rw [follows_append] at hfol
  obtain ⟨middle, hmid, hrest⟩ := bind_eq_some_iff.mp hfol
  obtain ⟨later, hlater, hrest⟩ := bind_eq_some_iff.mp hrest
  obtain ⟨after, hafter, hbelow⟩ := follows_mono (below_follow hbdry hlater) hrest
  refine ⟨after, ?_, hbelow⟩
  rw [follows_append, hmid]
  exact hafter

end OpenGesture

open OpenGesture

def BrowserHistoryGesture.opened (owner : BrowserHistoryGesture) : OpenGesture :=
  ⟨owner.clientId, owner.gestureId, owner.coalesceKey⟩

namespace GestureState

/-- The actions in the order in which the host takes them. -/
def sequence (state : GestureState) : List Sent := state.drained ++ state.queue

/-- A reader can follow the whole sequence; the gesture it finds open is that of
the recorded owner, and the key it saw is the owner's. -/
def Governed (state : GestureState) : Prop :=
  ∃ gesture, follows none state.sequence = some gesture ∧ Below gesture (state.active.map opened)

def DirtyByKey (state : GestureState) : Prop :=
  ∀ owner ∈ state.active, owner.dirty = owner.coalesceKey.isSome

end GestureState

section

variable {queue left : List Sent} {sent : Sent} {report : EnqueueReport Sent}

theorem boundary_of_seekTarget {target : String × ℕ}
    (h : sent.action.payload.seekTarget = some target) :
    sent.boundary = none := by
  unfold WebAction.seekTarget at h
  unfold Sent.boundary
  split at h
  · next hpayload => rw [hpayload]; rfl
  · next hpayload => rw [hpayload]; rfl
  · cases h

theorem boundary_facts {boundary : HistoryBoundary} (h : sent.boundary = some boundary) :
    sent.action.payload.coalesceKey = none ∧
      sent.action.payload.isPriority = true ∧
      sent.action.payload.rescan = none ∧
      sent.action.payload.isPerformanceOnlyForHistory = false := by
  unfold Sent.boundary WebAction.boundary at h
  split at h
  · next hpayload => rw [hpayload]; exact ⟨rfl, rfl, rfl, rfl⟩
  · next hpayload => rw [hpayload]; exact ⟨rfl, rfl, rfl, rfl⟩
  · next hpayload => rw [hpayload]; exact ⟨rfl, rfl, rfl, rfl⟩
  · cases h

/-- What admission may do to the sequence: nothing, for a rescan or a refused
ordinary action; else the new action is last and what stands before it is the
queue, possibly without one action that is no boundary. -/
inductive Appended (queue : List Sent) (sent : Sent) (left : List Sent) : EnqueueOutcome → Prop
  | absorbed (rescan : sent.action.payload.rescan ≠ none)
      (same : left = queue) : Appended queue sent left .coalesced
  | refused (ordinary : sent.action.payload.isPriority = false)
      (same : left = queue) : Appended queue sent left .dropped
  | pushed {outcome : EnqueueOutcome} (admitted : outcome ≠ .dropped)
      (extended : left = queue ++ [sent]) : Appended queue sent left outcome
  | replaced {outcome : EnqueueOutcome} (admitted : outcome ≠ .dropped)
      (front : List Sent) (prior : Sent) (rest : List Sent)
      (found : queue = front ++ prior :: rest)
      (boundary : prior.boundary = none)
      (extended : left = (front ++ rest) ++ [sent]) :
      Appended queue sent left outcome

theorem appended_of_admitted
    (h : Admitted queue sent report left)
    (hsafe : sent.action.payload.isPriority = true →
      absorbs queue sent = false → boundaryAtRisk queue = false) :
    Appended queue sent left report.outcome := by
  cases h with
  | rescan kind prior new pending old =>
    rw [Sent.webAction_sent] at new
    exact .absorbed (by simp [new]) rfl
  | seek target front prior found new old =>
    refine .replaced (by simp) front prior [] found (boundary_of_seekTarget old) (by simp)
  | value key front prior rest found new old behind =>
    refine .replaced (by simp) front prior rest found ?_ rfl
    cases hbdry : prior.boundary with
    | none => rfl
    | some boundary =>
      rw [Sent.webAction_sent, (boundary_facts hbdry).1] at old
      cases old
  | evict front prior rest found position priority full first fresh =>
    refine .replaced (by simp) front prior rest found ?_ rfl
    cases hbdry : prior.boundary with
    | none => rfl
    | some boundary =>
      obtain ⟨rfl, hall⟩ := first (boundary_facts hbdry).2.1
      have hrisk := hsafe priority fresh
      have hres : queue.all (fun other => other.action.payload.isPriority) = true :=
        all_eq_true.mpr hall
      have hhead : queue.head? = some prior := by rw [found]; rfl
      simp [boundaryAtRisk, full, hres, hhead, hbdry] at hrisk
  | refuse ordinary full fresh => exact .refused ordinary rfl
  | push room fresh => exact .pushed (by simp) rfl

end

namespace GestureState

variable {state : GestureState} {sent : Sent} {gesture : Option OpenGesture}

theorem appended_enqueueGuarded (state : GestureState) (sent : Sent)
    (hsafe : sent.action.payload.isPriority = true →
      absorbs state.queue sent = false → boundaryAtRisk state.queue = false) :
    Appended state.queue sent (state.enqueueGuardedActionWithAck sent).2.queue
      (state.enqueueGuardedActionWithAck sent).1.1 :=
  appended_of_admitted (admitted state.queue sent) hsafe

variable {outcome : EnqueueOutcome}

theorem follows_admission {left : List Sent} (happ : Appended state.queue sent left outcome)
    {owner : Option OpenGesture} (hfol : follows none state.sequence = some gesture)
    (hbelow : Below gesture owner) {next : Option OpenGesture}
    (hsent : ∀ seen, Below seen owner → ∃ after, follow seen sent = some after ∧ Below after next)
    (hrescan : sent.action.payload.rescan ≠ none → Below owner next) (hout : outcome ≠ .dropped) :
    ∃ after, follows none (state.drained ++ left) = some after ∧ Below after next := by
  cases happ with
  | absorbed rescan same => exact ⟨gesture, same ▸ hfol, hbelow.trans (hrescan rescan)⟩
  | refused ordinary same => exact absurd rfl hout
  | pushed admitted extended =>
    obtain ⟨after, hafter, hnext⟩ := hsent gesture hbelow
    refine ⟨after, ?_, hnext⟩
    rw [extended, ← append_assoc, follows_concat, ← sequence, hfol]
    exact hafter
  | replaced admitted front prior rest found boundary extended =>
    rw [sequence, found, ← append_assoc] at hfol
    obtain ⟨seen, hseen, hless⟩ := follows_remove boundary hfol
    obtain ⟨after, hafter, hnext⟩ := hsent seen (hless.trans hbelow)
    refine ⟨after, ?_, hnext⟩
    rw [extended, ← append_assoc, ← append_assoc, follows_concat, hseen]
    exact hafter

variable {boundary : HistoryBoundary}

theorem not_dropped_of_boundary {left : List Sent} (happ : Appended state.queue sent left outcome)
    (hbdry : sent.boundary = some boundary) : outcome ≠ .dropped := by
  cases happ with
  | absorbed rescan same => simp
  | refused ordinary same =>
    rw [(boundary_facts hbdry).2.1] at ordinary
    cases ordinary
  | pushed admitted extended
  | replaced admitted front prior rest found boundary extended => exact admitted

variable {call : GestureCall}

theorem safe_of_enqueues (hsafe : call.evictsBoundary state = false)
    (hsent : call.enqueues state = some sent) :
    sent.action.payload.isPriority = true →
      absorbs state.queue sent = false → boundaryAtRisk state.queue = false := by
  intro hprio hfresh
  simpa [evictsBoundary, hsent, hprio, hfresh] using hsafe

section

variable (next : Option BrowserHistoryGesture) (h : Governed state)
  (hsafe : sent.action.payload.isPriority = true →
    absorbs state.queue sent = false → boundaryAtRisk state.queue = false)
include h hsafe

/-- An admission after which the owner is `next`. -/
theorem governed_admission
    (hsent : ∀ seen, Below seen (state.active.map opened) →
      ∃ after, follow seen sent = some after ∧ Below after (next.map opened))
    (hrescan : sent.action.payload.rescan ≠ none → next = state.active)
    (hout : (state.enqueueGuardedActionWithAck sent).1.1 ≠ .dropped) :
    Governed { (state.enqueueGuardedActionWithAck sent).2 with active := next } := by
  obtain ⟨gesture, hfol, hbelow⟩ := h
  refine follows_admission (appended_enqueueGuarded state sent hsafe) hfol hbelow hsent ?_ hout
  intro hrescan'
  rw [hrescan hrescan']
  exact below_refl _

theorem governed_boundary (hbdry : sent.boundary = some boundary)
    (hsent : ∀ seen, Below seen (state.active.map opened) →
      followBoundary seen sent.client boundary = some (next.map opened))
    :
    (state.enqueueGuardedActionWithAck sent).1.1 ≠ .dropped ∧
      Governed { (state.enqueueGuardedActionWithAck sent).2 with active := next } := by
  have happ := appended_enqueueGuarded state sent hsafe
  have hout := not_dropped_of_boundary happ hbdry
  refine ⟨hout, governed_admission next h hsafe ?_ ?_ hout⟩
  · intro seen hseen
    refine ⟨_, ?_, below_refl _⟩
    rw [follow, hbdry]
    exact hsent seen hseen
  · intro hrescan
    exact absurd (boundary_facts hbdry).2.2.1 hrescan

end

variable {clientId : UInt64} {identity : ActionIdentity} {gestureId : UInt64}

theorem Governed.begin (h : Governed state)
    (hsafe : (begin clientId gestureId identity).evictsBoundary state = false) :
    Governed ((begin clientId gestureId identity).perform state) := by
  simp only [perform, enqueueBrowserHistoryBegin]
  by_cases hact : state.active.isSome
  · rw [if_pos hact]
    exact h
  · have hnone : state.active = none := by simpa using hact
    have hsent : (GestureCall.begin clientId gestureId identity).enqueues
        state = some (GestureCall.beginSent clientId gestureId identity) := by
      simp [GestureCall.enqueues, hnone]
    obtain ⟨hout, hgoverned⟩ := governed_boundary (some ⟨clientId, gestureId, none, false⟩) h
      (safe_of_enqueues hsafe hsent) rfl (by
        intro seen hseen
        rw [hnone] at hseen
        rw [below_none hseen]
        rfl)
    rw [if_neg hact, if_pos hout]
    exact hgoverned

variable {owner : BrowserHistoryGesture} {cancel : Bool}

theorem Governed.close (h : Governed state) (hdirty : DirtyByKey state)
    (howner : state.active = some owner)
    (hclean : cancel = true → owner.dirty = false)
    (hsafe : (finishSent owner.clientId owner.gestureId cancel
        identity).action.payload.isPriority = true →
      absorbs state.queue (finishSent owner.clientId owner.gestureId cancel identity) = false →
        boundaryAtRisk state.queue = false) :
    let sent := finishSent owner.clientId owner.gestureId cancel identity
    (state.enqueueGuardedActionWithAck sent).1.1 ≠ .dropped ∧
      Governed { (state.enqueueGuardedActionWithAck sent).2 with active := none } := by
  intro sent
  have hbdry : sent.boundary = some
      (if cancel then .cancel owner.gestureId else .end owner.gestureId) := by
    cases cancel <;> rfl
  refine governed_boundary none h hsafe hbdry ?_
  intro seen hseen
  rw [howner] at hseen
  obtain ⟨seen, rfl, hcli, hgesture, hkey⟩ := below_some hseen
  have hclientId : seen.clientId = sent.client := hcli
  have hgestureId : seen.gestureId = owner.gestureId := hgesture
  cases cancel with
  | false => simp [followBoundary, hclientId, hgestureId]
  | true =>
    have hnone : owner.coalesceKey = none := by
      have hsame := hdirty owner howner
      rw [hclean rfl] at hsame
      simpa using hsame.symm
    have hseenKey : seen.key = none := by
      rcases hkey with hkey | hkey
      · exact hkey
      · exact hkey.trans hnone
    simp [followBoundary, hclientId, hgestureId, hseenKey]

theorem mayFinish_iff :
    state.mayFinish clientId gestureId cancel = true ↔
      ∃ owner, state.active = some owner ∧ owner.clientId = clientId ∧
        owner.gestureId = gestureId ∧
        (cancel = true → owner.dirty = false) := by
  unfold mayFinish
  rw [Option.any_eq_true]
  constructor
  · rintro ⟨owner, howner, hvalid⟩
    simp only [Bool.and_eq_true, decide_eq_true_eq, Bool.or_eq_true, Bool.not_eq_true'] at hvalid
    obtain ⟨⟨hcli, hgesture⟩, hclean⟩ := hvalid
    refine ⟨owner, howner, hcli, hgesture, ?_⟩
    intro hcancel
    rcases hclean with hclean | hclean
    · rw [hcancel] at hclean
      cases hclean
    · exact hclean
  · rintro ⟨owner, howner, rfl, rfl, hclean⟩
    refine ⟨owner, howner, ?_⟩
    cases cancel with
    | false => simp
    | true => simp [hclean rfl]

theorem Governed.finish (h : Governed state) (hdirty : DirtyByKey state)
    (hsafe : (finish clientId gestureId cancel identity).evictsBoundary state = false) :
    Governed ((finish clientId gestureId cancel identity).perform state) := by
  simp only [perform, enqueueBrowserHistoryFinish]
  cases hmay : state.mayFinish clientId gestureId cancel with
  | false => exact h
  | true =>
    have hsent : (GestureCall.finish clientId gestureId cancel identity).enqueues state =
        some (GestureCall.finishSent clientId gestureId cancel identity) := by
      simp [GestureCall.enqueues, hmay]
    have hsafe := safe_of_enqueues hsafe hsent
    obtain ⟨owner, howner, rfl, rfl, hclean⟩ := mayFinish_iff.mp hmay
    obtain ⟨hout, hgoverned⟩ := h.close hdirty howner hclean hsafe
    rw [Bool.not_true, if_neg Bool.false_ne_true, if_pos hout]
    exact hgoverned

theorem ownedBy_eq_some (h : state.ownedBy clientId = some gestureId) :
    ∃ owner, state.active = some owner ∧ owner.clientId = clientId ∧
      owner.gestureId = gestureId := by
  obtain ⟨owner, hfilter, rfl⟩ := map_eq_some_iff.mp h
  obtain ⟨howner, hcli⟩ := filter_eq_some_iff.mp hfilter
  exact ⟨owner, howner, of_decide_eq_true hcli, rfl⟩

theorem Governed.disconnect (h : Governed state) (hdirty : DirtyByKey state)
    (hsafe : (disconnect clientId identity).evictsBoundary state = false) :
    Governed ((disconnect clientId identity).perform state) := by
  simp only [perform, disconnectBrowserHistoryGesture]
  cases howned : state.ownedBy clientId with
  | none => exact h
  | some gestureId =>
    have hsent : (GestureCall.disconnect clientId identity).enqueues state =
        some (GestureCall.finishSent clientId gestureId false identity) := by
      simp [GestureCall.enqueues, howned]
    have hsafe := safe_of_enqueues hsafe hsent
    obtain ⟨owner, howner, rfl, rfl⟩ := ownedBy_eq_some howned
    obtain ⟨_, hgoverned⟩ := h.close hdirty howner (by simp) hsafe
    exact hgoverned

variable {seen : Option OpenGesture}

theorem follow_free (hbdry : sent.boundary = none)
    (hfree : state.isOwned sent.action.payload = false)
    (hseen : Below seen (state.active.map opened)) :
    follow seen sent = some seen := by
  rw [follow, hbdry]
  cases hact : state.active with
  | none =>
    rw [hact] at hseen
    rw [below_none hseen]
    rfl
  | some owner =>
    rw [hact] at hseen
    obtain ⟨seen, rfl, -⟩ := below_some hseen
    have hperf : sent.action.payload.isPerformanceOnlyForHistory = true := by
      simpa [isOwned, hact] using hfree
    simp [followAction, hperf]

variable {action : WebAction}

theorem mayAct_iff :
    mayAct owner clientId action = true ↔ owner.clientId = clientId ∧
      ∃ key, candidateKey action = some key ∧ ∀ owned ∈ owner.coalesceKey, owned = key := by
  simp [mayAct, Option.any_eq_true, Option.all_eq_true]

theorem follow_owned {key : String} (hbdry : sent.boundary = none)
    (hcli : owner.clientId = sent.client) (hkey : candidateKey sent.action.payload = some key)
    (hsame : ∀ owned ∈ owner.coalesceKey, owned = key) (hseen : Below seen (some owner.opened)) :
    ∃ after, follow seen sent = some after ∧ Below after (some (publish owner key).opened) := by
  obtain ⟨seen, rfl, hseenClient, hgesture, hseenKey⟩ := below_some hseen
  have hauth : sent.action.payload.isPerformanceOnlyForHistory = false := by
    by_contra hperf
    simp [candidateKey, hperf] at hkey
  have hcoalesce : sent.action.payload.coalesceKey = some key := by
    simpa [candidateKey, hauth] using hkey
  have howned : seen.key = none ∨ seen.key = some key := by
    rcases hseenKey with hnone | hseenKey
    · exact .inl hnone
    · cases hown : owner.coalesceKey with
      | none => exact .inl (hseenKey.trans hown)
      | some owned =>
        have hall := hsame owned hown
        exact .inr (hseenKey.trans (hown.trans (by rw [hall])))
  refine ⟨some { seen with key := some key }, ?_, hseenClient, hgesture, ?_⟩
  · rw [follow, hbdry]
    simp only [followAction, hauth, hcoalesce, Bool.false_eq_true, if_false]
    rw [if_pos ⟨hseenClient.trans hcli, howned⟩]
  · refine .inr ?_
    cases hown : owner.coalesceKey with
    | none => simp [opened, publish, hown]
    | some owned => simp [opened, publish, hown, hsame owned hown]

theorem governed_dropped (h : Governed state)
    (hsafe : sent.action.payload.isPriority = true →
      absorbs state.queue sent = false → boundaryAtRisk state.queue = false)
    (hout : (state.enqueueGuardedActionWithAck sent).1.1 = .dropped) :
    Governed (state.enqueueGuardedActionWithAck sent).2 := by
  have happ := appended_enqueueGuarded state sent hsafe
  rw [hout] at happ
  have hqueue : (state.enqueueGuardedActionWithAck sent).2.queue = state.queue := by
    cases happ with
    | refused ordinary same => exact same
    | pushed admitted extended
    | replaced admitted front prior rest found boundary extended => exact absurd rfl admitted
  obtain ⟨gesture, hfol, hbelow⟩ := h
  refine ⟨gesture, ?_, hbelow⟩
  rw [sequence, hqueue]
  exact hfol

def ownerAfter (state : GestureState) (action : WebAction) : Option BrowserHistoryGesture :=
  (if state.isOwned action then candidateKey action else none).elim
    state.active fun key => state.active.map (publish · key)

theorem ownerAfter_of_rescan (hrescan : action.rescan ≠ none) :
    state.ownerAfter action = state.active := by
  obtain ⟨kind, hkind⟩ := ne_none_iff_exists'.mp hrescan
  have hcand : candidateKey action = none := by
    simp [candidateKey, WebAction.coalesceKey_of_rescan hkind]
  simp [ownerAfter, hcand]

theorem follow_ownerAfter (hbdry : sent.boundary = none)
    (hallowed : (state.isOwned sent.action.payload &&
      !state.active.any (mayAct · sent.client sent.action.payload)) = false)
    (hseen : Below seen (state.active.map opened)) :
    ∃ after, follow seen sent = some after ∧ Below after
      ((state.ownerAfter sent.action.payload).map opened) := by
  cases howned : state.isOwned sent.action.payload with
  | false =>
    refine ⟨seen, follow_free hbdry howned hseen, ?_⟩
    rw [ownerAfter, howned]
    exact hseen
  | true =>
    rw [howned, Bool.true_and, Bool.not_eq_false', Option.any_eq_true]
      at hallowed
    obtain ⟨owner, howner, hmay⟩ := hallowed
    obtain ⟨hcli, key, hkey, hsame⟩ := mayAct_iff.mp hmay
    rw [howner] at hseen
    have hafter : state.ownerAfter sent.action.payload = some (publish owner key) := by
      simp [ownerAfter, howned, hkey, howner]
    rw [hafter]
    exact follow_owned hbdry hcli hkey hsame hseen

theorem Governed.act (h : Governed state) {action : Queued}
    {authored : action.payload.boundary = none}
    (hsafe : (act clientId action authored).evictsBoundary state = false) :
    Governed ((act clientId action authored).perform state) := by
  simp only [perform, enqueueBrowserActionDuringGesture]
  cases href : state.isOwned action.payload &&
      !state.active.any (mayAct · clientId action.payload) with
  | true => exact h
  | false =>
    have hsent : (GestureCall.act clientId action authored).enqueues state =
        some ⟨clientId, action⟩ := by
      simp [enqueues, href]
    have hsafe := safe_of_enqueues hsafe hsent
    by_cases hout : (state.enqueueGuardedActionWithAck ⟨clientId, action⟩).1.1 = .dropped
    · rw [if_neg (not_not.mpr hout)]
      exact governed_dropped h hsafe hout
    · rw [if_pos hout]
      refine governed_admission (state.ownerAfter action.payload) h hsafe ?_
        ownerAfter_of_rescan hout
      intro seen hseen
      have hbdry : Sent.boundary ⟨clientId, action⟩ = none := authored
      exact follow_ownerAfter hbdry href hseen

theorem Governed.drain (h : Governed state) : Governed state.drain := by
  obtain ⟨gesture, hfol, hbelow⟩ := h
  refine ⟨gesture, ?_, hbelow⟩
  rw [sequence, GestureState.drain, append_nil]
  exact hfol

/-- Only `publish` and a fresh Begin write the owner. -/
theorem DirtyByKey.perform (h : DirtyByKey state) (call : GestureCall) :
    DirtyByKey (call.perform state) := by
  cases call with
  | begin clientId gestureId identity =>
    simp only [GestureCall.perform, enqueueBrowserHistoryBegin]
    split
    · exact h
    · split
      · intro owner howner
        cases howner
        rfl
      · exact h
  | finish clientId gestureId cancel identity =>
    simp only [GestureCall.perform, enqueueBrowserHistoryFinish]
    split
    · exact h
    · split
      · intro owner howner
        cases howner
      · exact h
  | act clientId action authored =>
    simp only [GestureCall.perform, enqueueBrowserActionDuringGesture]
    split
    · exact h
    · split
      · intro owner howner
        cases hkey : (if state.isOwned action.payload then
            candidateKey action.payload else none) with
        | none =>
          rw [hkey] at howner
          exact h owner howner
        | some key =>
          rw [hkey] at howner
          obtain ⟨prior, hprior, rfl⟩ := map_eq_some_iff.mp howner
          rfl
      · exact h
  | disconnect clientId identity =>
    simp only [GestureCall.perform, disconnectBrowserHistoryGesture]
    split
    · exact h
    · intro owner howner
      cases howner
  | drain => exact h

theorem Governed.perform (h : Governed state) (hdirty : DirtyByKey state)
    (hsafe : call.evictsBoundary state = false) :
    Governed (call.perform state) := by
  cases call with
  | begin clientId gestureId identity => exact h.begin hsafe
  | finish clientId gestureId cancel identity => exact h.finish hdirty hsafe
  | act clientId action authored => exact h.act hsafe
  | disconnect clientId identity => exact h.disconnect hdirty hsafe
  | drain => exact h.drain

theorem after_append (before later : List GestureCall) :
    after (before ++ later) = later.foldl perform (after before) :=
  foldl_append

theorem dirtyByKey_after (calls : List GestureCall) : DirtyByKey (after calls) := by
  induction calls using reverseRecOn with
  | nil =>
    intro owner howner
    cases howner
  | append_singleton calls call ih =>
    rw [after_append]
    exact ih.perform call

/-- In a run whose steps evict no boundary, a reader of the drained and queued
actions follows every gesture, and the owner is that of the open one. -/
theorem gestures_never_interleave (calls : List GestureCall)
    (hsafe : ∀ before call later, calls = before ++ call :: later →
      call.evictsBoundary (after before) = false) :
    ∀ before later, calls = before ++ later → Governed (after before) := by
  intro before
  induction before using reverseRecOn with
  | nil =>
    intro later hcalls
    exact ⟨none, rfl, trivial⟩
  | append_singleton before call ih =>
    intro later hcalls
    rw [append_assoc, singleton_append] at hcalls
    rw [after_append]
    exact (ih (call :: later) hcalls).perform (dirtyByKey_after before)
      (hsafe before call later hcalls)

def floodIdentity (number : Fin 513) : ActionIdentity :=
  ⟨⟨number + 1, by omega, by unfold u64Max; omega⟩, .browser, number⟩

/-- A gesture of one client with one value, and the boundaries of a second
client that are refused meanwhile. -/
def twoClients : List GestureCall :=
  [.begin 1 7 (floodIdentity 0), .begin 2 8 (floodIdentity 1), .act 1 ⟨floodIdentity 2,
    .setMacro 0⟩ rfl, .finish 2 7 false (floodIdentity 3), .drain,
    .finish 1 7 false (floodIdentity 4), .begin 2 8 (floodIdentity 5)]

theorem twoClients_safe : ∀ before call later,
    twoClients = before ++ call :: later → call.evictsBoundary (after before) = false := by
  intro before call later hcalls
  have hget : ∀ position < 7, twoClients[position]?.all fun call =>
      !call.evictsBoundary (after (twoClients.take position)) := by
    decide +kernel
  have hlen : before.length < 7 := by
    have := congrArg length hcalls
    simp [twoClients] at this
    omega
  simpa [hcalls] using hget before.length hlen

theorem gestures_never_interleave_twoClients : Governed (after twoClients) :=
  gestures_never_interleave twoClients twoClients_safe twoClients [] (append_nil twoClients).symm

def opening : GestureCall := .begin 1 7 (floodIdentity 0)

def scene (number : Fin 512) : Sent := ⟨2, ⟨floodIdentity number.succ, .command .triggerScene⟩⟩

def sceneCall (number : Fin 512) : GestureCall := .act 2 (scene number).action rfl

/-- A gesture begins and 512 scenes are triggered before the host drains. -/
def flood : List GestureCall := opening :: (finRange 512).map sceneCall

theorem perform_sceneCall (state : GestureState) (number : Fin 512) :
    (sceneCall number).perform state =
      let (report, queue) := admitFresh state.queue (scene number)
      { state with
        queue
        terminated := state.terminated ++ report.terminal.toList } := by
  have hfree : state.isOwned (scene number).action.payload = false := Bool.and_false _
  have hadm : (admitFresh state.queue (scene number)).1.outcome = .added := by
    rw [admitFresh]
    split
    · split <;> rfl
    · next hprio => exact absurd rfl hprio
  have henqueue : enqueueBoundedDetailed state.queue
      (scene number) = admitFresh state.queue (scene number) := rfl
  have hsent : (⟨2, (scene number).action⟩ : Sent) = scene number := rfl
  simp only [sceneCall, perform, enqueueBrowserActionDuringGesture, enqueueGuardedActionWithAck,
    hsent, henqueue]
  simp [hfree, hadm]

theorem isPriority_scene (number : Fin 512) : (webAction (scene number)).isPriority = true := rfl

variable {number : Fin 512}

theorem admitFresh_scene {queue : List Sent} (hroom : queue.length < maxPendingActions) :
    admitFresh queue (scene number) = (⟨.added, none⟩, queue ++ [scene number]) := by
  rw [admitFresh, if_pos (isPriority_scene number), if_neg (Nat.not_le.mpr hroom)]

theorem admitFresh_scene_full {first : Sent} {rest : List Sent}
    (hfull : rest.length + 1 = maxPendingActions)
    (hres : ∀ sent ∈ first :: rest, sent.action.payload.isPriority) :
    admitFresh (first :: rest) (scene number) =
      (⟨.added, some (first, .superseded)⟩, rest ++ [scene number]) := by
  have hpos : evictionPosition (first :: rest) = 0 := by
    have hnone : (first :: rest).findIdx? (fun candidate =>
        !(webAction candidate).isPriority) = none := by
      refine findIdx?_eq_none_iff.mpr ?_
      intro sent hmem
      rw [Sent.webAction_sent, hres sent hmem]
      rfl
    rw [evictionPosition, hnone]
    rfl
  rw [admitFresh, if_pos (isPriority_scene number), length_cons, if_pos hfull.ge, hpos]
  rfl

theorem after_opening {scenes : List (Fin 512)} (hroom : scenes.length < maxPendingActions) :
    after (opening :: scenes.map sceneCall) =
      ⟨some ⟨1, 7, none, false⟩,
        beginSent 1 7 (floodIdentity 0) :: scenes.map scene, [],
        []⟩ := by
  induction scenes using reverseRecOn with
  | nil => rfl
  | append_singleton scenes number ih =>
    rw [length_append, length_singleton] at hroom
    rw [map_append, ← cons_append, after_append, ih (Nat.lt_of_succ_lt hroom)]
    rw [map_singleton, foldl_cons, foldl_nil,
      perform_sceneCall, admitFresh_scene (by simpa using hroom)]
    simp

theorem after_flood :
    after flood = ⟨some ⟨1, 7, none, false⟩, (finRange 512).map scene, [],
      [(beginSent 1 7 (floodIdentity 0), .superseded)]⟩ := by
  have hsplit : finRange 512 = (finRange 511).map Fin.castSucc ++ [Fin.last 511] :=
    finRange_succ_last
  have hlen : ((finRange 511).map Fin.castSucc).length = 511 := by rw [length_map, length_finRange]
  have hfull : (((finRange 511).map Fin.castSucc).map scene).length + 1 = maxPendingActions := by
    rw [length_map, hlen]
    rfl
  rw [flood, hsplit, map_append, ← cons_append, after_append, after_opening (by rw [hlen]; decide),
    map_singleton, foldl_cons, foldl_nil, perform_sceneCall, admitFresh_scene_full hfull]
  · rw [map_append]
    rfl
  · intro sent hmem
    rcases mem_cons.mp hmem with rfl | hmem
    · rfl
    · obtain ⟨number, -, rfl⟩ := List.mem_map.mp hmem
      rfl

/-- The boundary that opened the recorded gesture is nowhere in the
sequence. -/
theorem flood_loses_begin :
    (after flood).active = some ⟨1, 7, none, false⟩ ∧
      (∀ sent ∈ (after flood).sequence, sent.boundary = none) ∧
      ¬ Governed (after flood) := by
  have hboundary : ∀ number, (scene number).boundary = none := fun _ => rfl
  have hnone : ∀ sent ∈ (finRange 512).map scene, sent.boundary = none := by
    intro sent hmem
    obtain ⟨number, -, rfl⟩ := List.mem_map.mp hmem
    exact hboundary number
  have hsequence : (after flood).sequence = (finRange 512).map scene := by
    rw [after_flood, sequence, nil_append]
  have hactive : (after flood).active = some ⟨1, 7, none, false⟩ := by rw [after_flood]
  rw [Governed, hsequence, hactive]
  refine ⟨rfl, hnone, ?_⟩
  rintro ⟨gesture, hfollows, hbelow⟩
  rw [follows_unbounded hnone] at hfollows
  rw [← some.inj hfollows] at hbelow
  exact hbelow

end GestureState

end CollideOScope.Web
