import CollideOScope.Actions.Queues

/-!
# No admitted identity is lost

A custody record lists, for each protocol, the identities minted, those a drain
delivered and those collected after a displacement.  Every step of every
interleaving keeps them in agreement with the queues: what was minted is
delivered, collected or still in custody, each once; what is collected comes in
minting order; and the two queues never exceed the shared ceiling.
-/

namespace CollideOScope.Actions

open Function Nat Machine List Option Port ActionQueues

structure Custody where
  (minted drained collected : List ActionIdentity)

def identities {T : Type} (actions : List (ActionEnvelope T)) : List ActionIdentity :=
  actions.map ActionEnvelope.identity

namespace ActionQueues

variable {T : Type} (queues : ActionQueues T)

theorem displaceAdmitted_displaced :
    queues.displaceAdmitted.displaced = queues.displaced ++ identities queues.admitted := by
  obtain ⟨admitted, displaced⟩ := queues
  simp only [displaceAdmitted]
  induction admitted generalizing displaced with
  | nil => simp [identities]
  | cons action admitted ih =>
    rw [foldl_cons, ih]
    simp [identities]

/-- The identities the caller reads from the written prefix of its output. -/
def collectedIn (drained : ℕ × List (Option ActionIdentity) × ActionQueues T) :
    List ActionIdentity :=
  (drained.2.1.take drained.1).filterMap id

theorem collectedIn_drainDisplaced (output : List (Option ActionIdentity)) :
    collectedIn (queues.drainDisplaced output) = queues.displaced.take output.length := by
  have hlen : ((queues.displaced.take
      (min output.length queues.displaced.length)).map some).length =
        min output.length queues.displaced.length := by simp
  simp only [collectedIn, drainDisplaced]
  rw [take_append_of_le_length hlen.ge, take_of_length_le hlen.le, filterMap_map]
  simp [take_eq_take_min]

theorem drainDisplaced_displaced (output : List (Option ActionIdentity)) :
    (queues.drainDisplaced output).2.2.displaced = queues.displaced.drop output.length := by
  simp [drainDisplaced, drop_eq_drop_min]

end ActionQueues

namespace Port

variable {T : Type}

/-- The identity of a minted action that is not stored yet. -/
def held (port : Port T) : List ActionIdentity :=
  match port.holder with
  | some (.minted action) => [action.identity]
  | _ => []

def kept (port : Port T) : List ActionIdentity :=
  port.queues.displaced ++ (identities port.queues.admitted ++ port.held)

/-- What one step inside a critical section adds to the record. -/
def record (before : Port T) (label : PortLabel) (after : Port T) (custody : Custody) : Custody :=
  match label with
  | .mint => { custody with minted := custody.minted ++ after.held }
  | .drain false => { custody with drained := custody.drained ++ identities before.queues.admitted }
  | .drainDisplaced output =>
    { custody with
      collected := custody.collected ++
        ActionQueues.collectedIn (before.queues.drainDisplaced output) }
  | _ => custody

end Port

/-- The record of one protocol agrees with its port. -/
structure Kept {T : Type} (capacity : ℕ) (port : Port T) (custody : Custody) : Prop where
  once : List.Perm custody.minted (custody.drained ++ (custody.collected ++ port.kept))
  collectedOrder : List.Sublist (custody.collected ++ port.kept) custody.minted
  drainedOrder : List.Sublist (custody.drained ++ (identities port.queues.admitted ++ port.held))
    custody.minted
  bounded : port.queues.unresolvedLen + port.held.length ≤ capacity

abbrev Records := Protocol → Custody

def Records.empty : Records := fun _ => ⟨[], [], []⟩

def Records.next (records : Records) (before : Ingress) (label : IngressLabel)
    (after : Ingress) : Records :=
  match label with
  | .inside protocol label =>
    update records protocol
      (record (before.port protocol) label (after.port protocol) (records protocol))
  | _ => records

abbrev recordedIngress : Machine (Ingress × Records) IngressLabel :=
  ingressMachine.observe Records.empty Records.next

section

variable {T : Type} {capacity : ℕ} {source : ActionSourceClass}
  {sequencer advanced : ActionSequencer} {port next : Port T}
  {label : PortLabel} {custody : Custody}

theorem kept_new (capacity : ℕ) : Kept capacity (Port.new : Port T) ⟨[], [], []⟩ where
  once := Perm.refl []
  collectedOrder := Sublist.refl []
  drainedOrder := Sublist.refl []
  bounded := zero_le capacity

theorem Kept.tryPush (h : Kept capacity port custody) {ingress : Instant} {event : T}
    {contended : Bool} (hstep : port.tryPush ingress event contended = some next) :
    Kept capacity next custody := by
  cases contended with
  | true =>
    cases hstep
    exact ⟨h.once, h.collectedOrder, h.drainedOrder, h.bounded⟩
  | false =>
    have hfree : port.holder = none := by
      cases hhold : port.holder with
      | none => rfl
      | some holder => simp [Port.tryPush, hhold] at hstep
    have hnext : next = { port with holder := some (.admitting ingress event) } := by
      simpa [Port.tryPush, hfree] using hstep.symm
    have hheld : next.held = port.held := by simp [hnext, Port.held, hfree]
    have hqueues : next.queues = port.queues := by rw [hnext]
    have hkept : next.kept = port.kept := by rw [Port.kept, Port.kept, hheld, hqueues]
    exact ⟨hkept ▸ h.once, hkept ▸ h.collectedOrder,
      hheld ▸ hqueues ▸ h.drainedOrder, hheld ▸ hqueues ▸ h.bounded⟩

theorem Port.step_cases
    (hstep : port.step capacity source sequencer label = some (advanced, next)) :
    match label with
    | .refuse => advanced = sequencer ∧
        (∃ ingress event, port.holder = some (.admitting ingress event)) ∧
        next = { port.drop with holder := none }
    | .mint => ∃ ingress event,
        port.holder = some (.admitting ingress event) ∧
        port.queues.unresolvedLen < capacity ∧
        advanced = sequencer.advance ∧
        next = { port with holder := some (.minted ⟨⟨sequencer.current, source, ingress⟩, event⟩) }
    | .store => ∃ action, port.holder = some (.minted action) ∧
        advanced = sequencer ∧
        next =
          { port with
            queues := { port.queues with admitted := port.queues.admitted ++ [action] }
            holder := none }
    | .drain contended => advanced = sequencer ∧
        (contended = true ∧ next = port ∨
          contended = false ∧ port.holder = none ∧
            next = { port with queues := { port.queues with admitted := [] } })
    | .clearProtocolQueues => advanced = sequencer ∧ port.holder = none ∧
        next = { port with queues := port.queues.displaceAdmitted }
    | .drainDisplaced output => advanced = sequencer ∧ port.holder = none ∧
        next = { port with queues := (port.queues.drainDisplaced output).2.2 } := by
  cases label with simp only [step] at hstep
  | refuse =>
    split at hstep
    · next ingress event hhold =>
        split at hstep
        · cases hstep
          exact ⟨rfl, ⟨ingress, event, hhold⟩, rfl⟩
        · cases hstep
    · cases hstep
  | mint =>
    split at hstep
    · next ingress event hhold =>
        split at hstep
        · cases hstep
        · next hroom =>
            cases hstep
            exact ⟨ingress, event, hhold, Nat.lt_of_not_le hroom, rfl, rfl⟩
    · cases hstep
  | store =>
    split at hstep
    · next action hhold =>
        cases hstep
        exact ⟨action, hhold, rfl, rfl⟩
    · cases hstep
  | drain contended =>
    cases contended with
    | true =>
      cases hstep
      exact ⟨rfl, .inl ⟨rfl, rfl⟩⟩
    | false =>
      simp only [Bool.false_eq_true, if_false] at hstep
      split at hstep
      · next hhold =>
          cases hstep
          exact ⟨rfl, .inr ⟨rfl, hhold, rfl⟩⟩
      · cases hstep
  | clearProtocolQueues | drainDisplaced output =>
    split at hstep
    · next hhold =>
        cases hstep
        exact ⟨rfl, hhold, rfl⟩
    · cases hstep

theorem Kept.step (h : Kept capacity port custody)
    (hstep : port.step capacity source sequencer label = some (advanced, next)) :
    Kept capacity next (port.record label next custody) := by
  have hcases := Port.step_cases hstep
  cases label with
  | refuse =>
    obtain ⟨-, ⟨ingress, event, hhold⟩, rfl⟩ := hcases
    have hheld : port.held = [] := by simp [held, hhold]
    obtain ⟨honce, hcoll, hdrain, hbdd⟩ := h
    simp only [kept, hheld] at honce hcoll hdrain hbdd
    exact ⟨honce, hcoll, hdrain, hbdd⟩
  | mint =>
    obtain ⟨ingress, event, hhold, hroom, -, rfl⟩ := hcases
    have hheld : port.held = [] := by simp [held, hhold]
    obtain ⟨honce, hcoll, hdrain, -⟩ := h
    simp only [kept, hheld, append_nil] at honce hcoll hdrain
    refine ⟨?_, ?_, ?_, hroom⟩
    · simpa [kept, record, held] using honce.append_right [⟨sequencer.current, source, ingress⟩]
    · simpa [kept, record, held] using hcoll.append_right [⟨sequencer.current, source, ingress⟩]
    · simpa [record, held] using hdrain.append_right [⟨sequencer.current, source, ingress⟩]
  | store =>
    obtain ⟨action, hhold, -, rfl⟩ := hcases
    have hheld : port.held = [action.identity] := by simp [held, hhold]
    obtain ⟨honce, hcoll, hdrain, hbdd⟩ := h
    simp only [kept, hheld] at honce hcoll hdrain hbdd
    refine ⟨?_, ?_, ?_, ?_⟩
    · simpa [kept, record, held, identities] using honce
    · simpa [kept, record, held, identities] using hcoll
    · simpa [record, held, identities] using hdrain
    · simp only [unresolvedLen, length_singleton] at hbdd
      simp only [held, unresolvedLen, length_append, length_singleton, length_nil]
      omega
  | drain contended =>
    obtain ⟨-, ⟨rfl, rfl⟩ | ⟨rfl, hhold, rfl⟩⟩ := hcases
    · exact h
    · have hheld : port.held = [] := by simp [held, hhold]
      obtain ⟨honce, hcoll, hdrain, hbdd⟩ := h
      simp only [kept, hheld, append_nil] at honce hcoll hdrain
      refine ⟨?_, ?_, ?_, ?_⟩
      · simp only [kept, record, held, hhold, identities, map_nil, append_nil, append_assoc]
        refine honce.trans (Perm.append_left _ ?_)
        rw [← append_assoc]
        exact perm_append_comm
      · refine Sublist.trans ?_ hcoll
        simp [kept, held, hhold, identities, record]
      · simpa [record, held, hhold, identities] using hdrain
      · simp only [unresolvedLen, hheld] at hbdd
        simp only [unresolvedLen, held, hhold, length_nil]
        omega
  | clearProtocolQueues =>
    obtain ⟨-, hhold, rfl⟩ := hcases
    have hheld : port.held = [] := by simp [held, hhold]
    have hkept : kept { port with queues := port.queues.displaceAdmitted } = port.kept := by
      simp [kept, held, hhold, displaceAdmitted_displaced]
      rfl
    refine ⟨hkept ▸ h.once, hkept ▸ h.collectedOrder, ?_, ?_⟩
    · refine Sublist.trans ?_ h.drainedOrder
      simp [displaceAdmitted, identities, held, hhold, record]
    · have hbdd := h.bounded
      simp only [unresolvedLen, hheld] at hbdd
      simp only [unresolvedLen, held, hhold, displaceAdmitted_displaced, length_append,
        identities, length_map, length_nil]
      simp only [displaceAdmitted, length_nil] at *
      omega
  | drainDisplaced output =>
    obtain ⟨-, hhold, rfl⟩ := hcases
    have hheld : port.held = [] := by simp [held, hhold]
    have hkept : (custody.collected ++ collectedIn
        (port.queues.drainDisplaced output)) ++ kept
          { port with queues := (port.queues.drainDisplaced output).2.2 } =
        custody.collected ++ port.kept := by
      rw [collectedIn_drainDisplaced, kept, kept, drainDisplaced_displaced]
      simp only [append_assoc, append_cancel_left_eq]
      rw [← append_assoc, take_append_drop]
      rfl
    have honce := h.once
    have hcoll := h.collectedOrder
    rw [← hkept] at honce hcoll
    refine ⟨honce, hcoll, h.drainedOrder, ?_⟩
    · have hbdd := h.bounded
      simp only [unresolvedLen, hheld] at hbdd
      simp only [unresolvedLen, held, hhold, drainDisplaced_displaced, length_drop, length_nil]
      simp only [drainDisplaced] at *
      omega

end

@[simp] theorem setPort_port_self (ingress : Ingress) (protocol : Protocol)
    (port : Port protocol.Payload) :
    (ingress.setPort protocol port).port protocol = port :=
  update_self ..

variable {protocol : Protocol}

theorem setPort_port_of_ne (ingress : Ingress) {other : Protocol}
    (port : Port protocol.Payload) (h : other ≠ protocol) :
    (ingress.setPort protocol port).port other = ingress.port other :=
  update_of_ne h ..

def AllKept (p : Ingress × Records) : Prop :=
  ∀ protocol : Protocol, Kept protocol.capacity (p.1.port protocol) (p.2 protocol)

variable {ingress : Ingress} {records : Records} {port : Port protocol.Payload}

theorem AllKept.setPort (h : AllKept (ingress, records))
    {custody : Custody} (hport : Kept protocol.capacity port custody) :
    AllKept (ingress.setPort protocol port, update records protocol custody) := by
  intro other
  by_cases heq : other = protocol
  · subst heq
    simpa using hport
  · simpa [setPort_port_of_ne ingress port heq, heq] using h other

theorem AllKept.tryPush (h : AllKept (ingress, records)) {at' : Instant} {event : protocol.Payload}
    {contended : Bool} (hpush : (ingress.port protocol).tryPush at' event contended = some port) :
    AllKept (ingress.setPort protocol port, records) := by
  have hport := (h protocol).tryPush hpush
  have hall := h.setPort hport
  rwa [update_eq_self] at hall

variable {p : Ingress × Records} {q : Ingress × Records} {label : IngressLabel}

theorem AllKept.step (h : AllKept p)
    (hstep : recordedIngress.step p label = some q) : AllKept q := by
  obtain ⟨hmove, hnext⟩ := observe_step_eq_some.mp hstep
  obtain ⟨ingress, records⟩ := p
  obtain ⟨after, recordsAfter⟩ := q
  dsimp only at hmove hnext
  subst hnext
  cases label with
  | pushEventAt at' event contended =>
    obtain ⟨port, hpush, rfl⟩ := map_eq_some_iff.mp hmove
    exact h.tryPush hpush
  | handleMessageAt at' timestamp message echo contended =>
    simp only [ingressMachine, Ingress.step] at hmove
    split at hmove
    · cases hmove
      exact h
    · obtain ⟨port, hpush, rfl⟩ := map_eq_some_iff.mp hmove
      have hcnt : AllKept ({ ingress with
          midi := (Ingress.receiveMidi ingress.midi timestamp message echo).1 }, records) := h
      exact hcnt.tryPush hpush
  | inside protocol label =>
    obtain ⟨next, hinside, rfl⟩ := map_eq_some_iff.mp hmove
    have hport := (h protocol).step hinside
    have hall := h.setPort hport
    simpa [Records.next, AllKept] using hall

theorem allKept_of_reachable (h : recordedIngress.Reachable p) : AllKept p := by
  refine h.invariant ?_ fun _ _ _ hp hstep => hp.step hstep
  rintro ⟨ingress, records⟩ ⟨hstart, hrecords⟩ protocol
  change ingress = .new at hstart
  change records = .empty at hrecords
  rw [hstart, hrecords]
  exact kept_new protocol.capacity

theorem minted_only_by_mint (hstep : recordedIngress.step p label = some q)
    (hlabel : ∀ protocol, label ≠ .inside protocol .mint) :
    q.1.sequencer = p.1.sequencer ∧ ∀ protocol, (q.2 protocol).minted = (p.2 protocol).minted := by
  obtain ⟨hmove, hnext⟩ := observe_step_eq_some.mp hstep
  obtain ⟨ingress, records⟩ := p
  obtain ⟨after, recordsAfter⟩ := q
  dsimp only at hmove hnext
  subst hnext
  cases label with
  | pushEventAt at' event contended =>
    obtain ⟨port, -, rfl⟩ := map_eq_some_iff.mp hmove
    exact ⟨rfl, fun _ => rfl⟩
  | handleMessageAt at' timestamp message echo contended =>
    simp only [ingressMachine, Ingress.step] at hmove
    split at hmove
    · cases hmove
      exact ⟨rfl, fun _ => rfl⟩
    · obtain ⟨port, -, rfl⟩ := map_eq_some_iff.mp hmove
      exact ⟨rfl, fun _ => rfl⟩
  | inside protocol label =>
    obtain ⟨⟨advanced, next⟩, hinside, rfl⟩ := map_eq_some_iff.mp hmove
    have hcases := step_cases hinside
    have hrec : ∀ after,
        (record (ingress.port protocol) label after
          (records protocol)).minted = (records protocol).minted ∧
        advanced = ingress.sequencer := by
      intro after
      cases label with
      | mint => exact absurd rfl (hlabel protocol)
      | refuse | clearProtocolQueues | drainDisplaced output => exact ⟨rfl, hcases.1⟩
      | store => exact ⟨rfl, hcases.choose_spec.2.1⟩
      | drain contended => cases contended <;> exact ⟨rfl, hcases.1⟩
    refine ⟨(hrec next).2, fun other => ?_⟩
    by_cases heq : other = protocol
    · subst heq
      simp only [Records.next, update_self]
      exact (hrec _).1
    · simp [Records.next, heq]

/-- The output of one collection with room for `size` identities. -/
def scratch (size : ℕ) : List (Option ActionIdentity) := replicate size none

theorem recorded_inside {label : PortLabel} {next : Port protocol.Payload}
    (hstep : (p.1.port protocol).step protocol.capacity protocol.source
      p.1.sequencer label = some (p.1.sequencer, next)) :
    recordedIngress.step p (.inside protocol label) =
      some (p.1.setPort protocol next,
        update p.2 protocol (record (p.1.port protocol) label next (p.2 protocol))) := by
  refine observe_step_eq_some.mpr ⟨?_, ?_⟩
  · simp [ingressMachine, Ingress.step, hstep, Ingress.setPort]
  · simp [Records.next]

theorem queues_step (label : PortLabel) {queues : ActionQueues protocol.Payload}
    (hfree : (p.1.port protocol).holder = none)
    (hinside : (p.1.port protocol).step protocol.capacity protocol.source p.1.sequencer label =
      some (p.1.sequencer, { p.1.port protocol with queues }))
    (hminted : ∀ next custody,
      (record (p.1.port protocol) label next custody).minted = custody.minted) :
    ∃ q, recordedIngress.step p (.inside protocol label) = some q ∧
      (q.1.port protocol).holder = none ∧ (q.1.port protocol).queues = queues ∧
      (q.2 protocol).minted = (p.2 protocol).minted := by
  refine ⟨_, recorded_inside hinside, ?_, ?_, ?_⟩
  · simpa using hfree
  · simp
  · simp [hminted]

theorem exec_collect (protocol : Protocol) (size rounds : ℕ)
    (hfree : (p.1.port protocol).holder = none) :
    ∃ q, recordedIngress.exec p
        (replicate rounds (.inside protocol (.drainDisplaced (scratch size)))) = some q ∧
      (q.1.port protocol).holder = none ∧
      (q.1.port protocol).queues.admitted = (p.1.port protocol).queues.admitted ∧
      (q.1.port protocol).queues.displaced =
        (p.1.port protocol).queues.displaced.drop (rounds * size) ∧
      (q.2 protocol).minted = (p.2 protocol).minted := by
  induction rounds generalizing p with
  | zero => exact ⟨p, rfl, hfree, rfl, by simp, rfl⟩
  | succ rounds ih =>
    obtain ⟨mid, hstep, hmid, hqueues, hmintedMid⟩ :=
      queues_step (.drainDisplaced (scratch size)) hfree (by simp [Port.step, hfree]; rfl)
        (by simp [record])
    obtain ⟨q, hexec, hhold, hadm, hdisplaced, hminted⟩ := ih hmid
    refine ⟨q, ?_, hhold, ?_, ?_, hminted.trans hmintedMid⟩
    · rw [replicate_succ, exec, hstep]
      exact hexec
    · rw [hadm, hqueues]
      rfl
    · rw [hdisplaced, hqueues, ActionQueues.drainDisplaced_displaced, drop_drop, scratch,
        length_replicate, succ_mul, add_comm]

theorem exec_deliver {size rounds : ℕ} (h : recordedIngress.Reachable p)
    (hfree : (p.1.port protocol).holder = none)
    (hrounds : (p.1.port protocol).queues.displaced.length ≤ rounds * size) :
    ∃ q, recordedIngress.exec p
        (.inside protocol (.drain false) :: replicate rounds
          (.inside protocol (.drainDisplaced (scratch size)))) = some q ∧
      (q.2 protocol).minted = (p.2 protocol).minted ∧
      List.Perm (p.2 protocol).minted ((q.2 protocol).drained ++ (q.2 protocol).collected) := by
  obtain ⟨mid, hstep, hmid, hqueues, hmintedMid⟩ :=
    queues_step (.drain false) hfree (by simp [Port.step, hfree]; rfl) (by simp [record])
  obtain ⟨q, hexec, hhold, hadm, hdisplaced, hminted⟩ := exec_collect protocol size rounds hmid
  have hrun : recordedIngress.exec p
      (.inside protocol (.drain false) :: replicate rounds
        (.inside protocol (.drainDisplaced (scratch size)))) = some q := by
    rw [exec, hstep]
    exact hexec
  have hkept := allKept_of_reachable (h.run (freeRun_of_exec hrun)) protocol
  have hemp : (q.1.port protocol).kept = [] := by
    rw [kept, hadm, hdisplaced, hqueues, drop_eq_nil_of_le hrounds]
    simp [identities, held, hhold]
  have hmintedAll := hminted.trans hmintedMid
  refine ⟨q, hrun, hmintedAll, ?_⟩
  rw [← hmintedAll]
  simpa [hemp] using hkept.once

/-- **No admitted OSC or MIDI action identity is lost.** -/
theorem admitted_identities_kept {p : Ingress × Records}
    (h : recordedIngress.Reachable p) (protocol : Protocol) :
    let port := p.1.port protocol
    let custody := p.2 protocol
    List.Perm custody.minted (custody.drained ++ (custody.collected ++ port.kept)) ∧
      List.Sublist (custody.collected ++ port.kept) custody.minted ∧
      port.queues.admitted.length + port.queues.displaced.length ≤ 1024 ∧
      (∀ label q, recordedIngress.step p label = some q →
        (label ≠ .inside .osc .mint ∧ label ≠ .inside .midi .mint →
          q.1.sequencer = p.1.sequencer ∧ (q.2 protocol).minted = custody.minted) ∧
        (label = .inside protocol .mint →
          (∃ ingress event, port.holder = some (.admitting ingress event)) ∧
          port.queues.admitted.length + port.queues.displaced.length < 1024) ∧
        (label = .inside protocol .refuse → (q.1.port protocol).holder = none)) ∧
      (port.holder = none → ∀ size rounds,
        port.queues.displaced.length ≤ rounds * size →
        ∃ q, recordedIngress.exec p
            (.inside protocol (.drain false) :: replicate rounds
              (.inside protocol (.drainDisplaced (scratch size)))) = some q ∧
          (q.2 protocol).minted = custody.minted ∧
          List.Perm custody.minted ((q.2 protocol).drained ++ (q.2 protocol).collected)) := by
  intro port custody
  have hkept := allKept_of_reachable h protocol
  have hcapacity : protocol.capacity = 1024 := by cases protocol <;> rfl
  have hbounded := hkept.bounded
  rw [hcapacity, unresolvedLen] at hbounded
  refine ⟨hkept.once, hkept.collectedOrder, (le_add_right _ _).trans hbounded, ?_, ?_⟩
  · intro label q hstep
    refine ⟨?_, ?_, ?_⟩
    · rintro ⟨hosc, hmidi⟩
      have hlabel : ∀ other, label ≠ .inside other .mint := by
        intro other
        cases other with
        | osc => exact hosc
        | midi => exact hmidi
      obtain ⟨hsequencer, hminted⟩ := minted_only_by_mint hstep hlabel
      exact ⟨hsequencer, hminted protocol⟩
    · rintro rfl
      obtain ⟨hmove, -⟩ := observe_step_eq_some.mp hstep
      obtain ⟨next, hinside, -⟩ := map_eq_some_iff.mp hmove
      obtain ⟨ingress, event, hholder, hroom, -⟩ := step_cases hinside
      rw [hcapacity] at hroom
      exact ⟨⟨ingress, event, hholder⟩, hroom⟩
    · rintro rfl
      obtain ⟨hmove, -⟩ := observe_step_eq_some.mp hstep
      obtain ⟨next, hinside, hafter⟩ := map_eq_some_iff.mp hmove
      obtain ⟨-, -, hnext⟩ := step_cases hinside
      rw [← hafter]
      simp only [setPort_port_self, hnext]
  · intro hfree size rounds hrounds
    exact exec_deliver h hfree hrounds

/-- A transport start is admitted and a lifecycle barrier displaces it. -/
def barrierLabels : List IngressLabel :=
  [.handleMessageAt 5 7 [0xfa] false false, .inside .midi .mint,
    .inside .midi .store, .inside .midi .clearProtocolQueues]

theorem admitted_identities_kept_barrier :
    ∃ p, recordedIngress.exec (.new, .empty) barrierLabels = some p ∧
      (p.1.port .midi).queues.displaced.length = 1 ∧
      List.Perm (p.2 .midi).minted ((p.2 .midi).drained ++
        ((p.2 .midi).collected ++ (p.1.port .midi).kept)) := by
  have hstart : recordedIngress.start (.new, .empty) := ⟨rfl, rfl⟩
  obtain ⟨p, hexec, hdisplaced⟩ :
      ∃ p, recordedIngress.exec (.new, .empty) barrierLabels = some p ∧
        (p.1.port .midi).queues.displaced.length = 1 := ⟨_, rfl, rfl⟩
  exact ⟨p, hexec, hdisplaced, (admitted_identities_kept (reachable_of_exec hstart hexec) .midi).1⟩

end CollideOScope.Actions
